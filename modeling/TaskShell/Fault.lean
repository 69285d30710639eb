import TaskShell.Value
import TaskShell.Text.Utf8

/-!
# Faults

Everything that can go wrong while a command runs, by cause. The wording of each
cause is in one place.
-/

namespace TaskShell

open Text

/-- The conditions under which the system refuses a request. -/
inductive Errno where
  | notPermitted
  | noEntry
  | noDevice
  | badFormat
  | badDescriptor
  | denied
  | fileExists
  | notDirectory
  | isDirectory
  | invalid
  | nameTooLong
  | notEmpty
  deriving DecidableEq, Repr, Inhabited

namespace Errno

def number : Errno → Nat
  | notPermitted => 1
  | noEntry => 2
  | noDevice => 6
  | badFormat => 8
  | badDescriptor => 9
  | denied => 13
  | fileExists => 17
  | notDirectory => 20
  | isDirectory => 21
  | invalid => 22
  | nameTooLong => 36
  | notEmpty => 39

def text : Errno → String
  | notPermitted => "Operation not permitted"
  | noEntry => "No such file or directory"
  | noDevice => "No such device or address"
  | badFormat => "Exec format error"
  | badDescriptor => "Bad file descriptor"
  | denied => "Permission denied"
  | fileExists => "File exists"
  | notDirectory => "Not a directory"
  | isDirectory => "Is a directory"
  | invalid => "Invalid argument"
  | nameTooLong => "File name too long"
  | notEmpty => "Directory not empty"

end Errno

/-- A value of the wrong kind, by what was done with it; the argument is the
kind of the value. -/
inductive KindFault where
  /-- A text operation that only texts have. -/
  | noOperation (kind operation : String)
  | notSearchable (kind : String)
  /-- An integer was read from something that is neither text nor number. -/
  | notInteger (kind : String)
  /-- A number was read from something that is neither text nor number. -/
  | notNumber (kind : String)
  | notPath (kind : String)
  /-- A path or a descriptor was expected by the named system call. -/
  | notPathFor (call kind : String)
  /-- A path or a descriptor was expected by the named system call. -/
  | notPathOrNumberFor (call kind : String)
  | notJoinable (index : Nat) (kind : String)
  | notDocument (kind : String)
  | notPattern
  | notConcatenable (left right : String)
  | unknownArgument (call name : String)
  | other (message : String)
  deriving DecidableEq, Repr

def KindFault.message : KindFault → String
  | noOperation kind op => s!"'{kind}' object has no attribute '{op}'"
  | notSearchable kind => s!"expected string or bytes-like object, got '{kind}'"
  | notInteger kind =>
    s!"int() argument must be a string, a bytes-like object or a real number, not '{kind}'"
  | notNumber kind =>
    s!"float() argument must be a string or a real number, not '{kind}'"
  | notPath kind => s!"expected str, bytes or os.PathLike object, not {kind}"
  | notPathFor call kind =>
    s!"{call}: path should be string, bytes or os.PathLike, not {kind}"
  | notPathOrNumberFor call kind =>
    s!"{call}: path should be string, bytes, os.PathLike or integer, not {kind}"
  | notJoinable index kind =>
    s!"sequence item {index}: expected str instance, {kind} found"
  | notDocument kind =>
    s!"the JSON object must be str, bytes or bytearray, not {kind}"
  | notPattern => "first argument must be string or compiled pattern"
  | notConcatenable left right =>
    s!"can only concatenate {left} (not \"{right}\") to {left}"
  | unknownArgument call name =>
    s!"{call}() got an unexpected keyword argument '{name}'"
  | other message => message

inductive ValueFault where
  | badInteger (literal : String)
  | longInteger (digits : Nat)
  | hugeInteger
  | badNumber (literal : String)
  | nullByte
  | openQuote
  | openEscape
  | emptyRange (first last : Int)
  | undecodable (at_ : Utf8Fault)
  /-- A text has characters beyond the small set. -/
  | unencodable (message : String)
  | other (message : String)
  deriving DecidableEq, Repr

def undecodableMessage (f : Utf8Fault) : String :=
  let place :=
    if f.size == 1 then
      s!"byte 0x{String.ofList (hex 2 f.first.toNat)} in position {f.offset}"
    else s!"bytes in position {f.offset}-{f.offset + f.size - 1}"
  s!"'utf-8' codec can't decode {place}: {f.reason.text}"

def ValueFault.message : ValueFault → String
  | badInteger literal =>
    s!"invalid literal for int() with base 10: {quoted literal}"
  | longInteger digits =>
    s!"Exceeds the limit (4300 digits) for integer string conversion: value has {digits} digits; " ++
      "use sys.set_int_max_str_digits() to increase the limit"
  | hugeInteger =>
    "Exceeds the limit (4300 digits) for integer string conversion; " ++
      "use sys.set_int_max_str_digits() to increase the limit"
  | badNumber literal => s!"could not convert string to float: {quoted literal}"
  | nullByte => "embedded null byte"
  | openQuote => "No closing quotation"
  | openEscape => "No escaped character"
  | emptyRange first last =>
    s!"empty range for randrange() ({first}, {last + 1}, {last + 1 - first})"
  | undecodable f => undecodableMessage f
  | unencodable message => message
  | other message => message

inductive Fault where
  /-- The system refused a request about the named files. -/
  | system (code : Errno) (files : List Value)
  | noDirectory (path : String)
  /-- There is no file of a name anywhere it is looked for. -/
  | noFile (name : String)
  /-- A piece of system information is not available. -/
  | noInformation (key : String)
  | kind (f : KindFault)
  | value (f : ValueFault)
  | missingField (name : String)
  | missingOperation (module_ name : String)
  | exitCode (command : List String) (code : Int)
  | timeout (command : List String) (seconds : String)
  | network (reason : String)
  | overflow (message : String)
  | sameFile (source target : String)
  | transfer (message : String)
  | document (message : String)
  | pattern (message : String)
  | encoding (message : String)
  | compressed (message : String)
  | notCompressed (message : String)
  | endOfStream (message : String)
  | runtime (message : String)
  /-- A name was looked up where there is none. -/
  | unsupported (message : String)
  | endOfInput
  deriving Repr

def shownList (items : List String) : String :=
  "[" ++ ", ".intercalate (items.map quoted) ++ "]"

/-- The wording of a signal that ended a program. -/
def signalName : Nat → String
  | 1 => "SIGHUP"
  | 2 => "SIGINT"
  | 3 => "SIGQUIT"
  | 6 => "SIGABRT"
  | 9 => "SIGKILL"
  | 11 => "SIGSEGV"
  | 13 => "SIGPIPE"
  | 15 => "SIGTERM"
  | _ => "SIGUSR1"

def Fault.message : Fault → String
  | system code files =>
    let place := match files with
      | [] => ""
      | _ => ": " ++ " -> ".intercalate (files.map Value.shown)
    s!"[Errno {code.number}] {code.text}{place}"
  | noDirectory path => s!"Directory does not exist: {path}"
  | noFile name => name
  | noInformation key => s!"platform.{key}"
  | kind f => f.message
  | value f => f.message
  | missingField name => quoted name
  | missingOperation module_ name =>
    s!"module '{module_}' has no attribute '{name}'"
  | exitCode command code =>
    if code < 0 then
      s!"Command '{shownList command}' died with <Signals.{signalName code.natAbs}: {-code}>."
    else s!"Command '{shownList command}' returned non-zero exit status {code}."
  | timeout command seconds =>
    s!"Command '{shownList command}' timed out after {seconds} seconds"
  | network reason => s!"<urlopen error {reason}>"
  | overflow message => message
  | sameFile source target =>
    s!"{quoted source} and {quoted target} are the same file"
  | transfer message => message
  | document message => message
  | pattern message => message
  | encoding message => message
  | compressed message => message
  | notCompressed message => message
  | endOfStream message => message
  | runtime message => message
  | unsupported message => message
  | endOfInput => ""

end TaskShell
