import TaskShell.Fault
import TaskShell.Json.Writer
import TaskShell.Path.Posix
import TaskShell.Proofs.Compression

/-!
# Bundled scripts

A bundle is one file with a script in it: a mark, the length of a manifest in
eight bytes, the manifest as a document, and the compressed script. `pack`
writes bundles and `unpack` reads them.
-/

namespace TaskShell.Bundle

open Text

def mark : List UInt8 := utf8 "LUWEXE1"

inductive Interpreter where
  | shell
  /-- The installed interpreter of another language. -/
  | installed
  deriving DecidableEq, Repr

def Interpreter.name : Interpreter → String
  | shell => "luw"
  | installed => "python"

/-- The interpreter of a script, by the ending of its name. -/
def Interpreter.ofPath (p : String) : Interpreter :=
  if lower (Path.splitExt p).2 == ".py" then .installed else .shell

structure Manifest where
  name : String
  entry : String
  created : Float
  version : String
  interpreter : Interpreter

def Manifest.ofPath (p : String) (created : Float)
    (version : String) : Manifest :=
  let entry := Path.baseName p
  ⟨(Path.splitExt entry).1, entry, created, version, Interpreter.ofPath p⟩

def Manifest.fields (m : Manifest) : List (String × Value) :=
  [("name", .text m.name), ("entry", .text m.entry),
    ("created", .float m.created), ("py_version", .text m.version),
    ("type", .text m.interpreter.name)]

/-- A `Manifest` as it is written: on one line, with all characters as they
are. -/
def Manifest.text (m : Manifest) : String :=
  Json.textOf (Json.write { Json.Layout.line with ascii := false } 0
    (.ofValue (.record m.fields)))

def bigEndian (count n : Nat) : List UInt8 :=
  (Codec.Gzip.toLittleEndian n count).reverse

def ofBigEndian (bytes : List UInt8) : Nat :=
  Codec.Gzip.littleEndian bytes.reverse

def lengthSize : Nat := 8

def pack (packer : Codec.Gzip.Packer) (m : Manifest)
    (script : List UInt8) : List UInt8 :=
  let manifest := utf8 m.text
  mark ++ bigEndian lengthSize manifest.length ++ manifest ++ packer.pack script

/-- The parts of a bundle, before any of them is read. -/
structure Sections where
  manifest : List UInt8
  payload : List UInt8
  deriving DecidableEq, Repr

inductive BundleFault where
  | noMark
  /-- The length of the manifest is beyond what can be asked for. -/
  | hugeLength
  | manifest (message : String)
  | payload (message : String)
  deriving DecidableEq, Repr

def BundleFault.toFault (p : String) : BundleFault → Fault
  | noMark => .value (.other "Not a LUW binary (.le) or unsupported version")
  | hugeLength => .overflow "cannot fit 'int' into an index-sized integer"
  | manifest message => .value (.other s!"Invalid manifest in {p}: {message}")
  | payload message =>
    .value (.other s!"Invalid payload (not gzip?) in {p}: {message}")

def maxLength : Nat := Nat.pow 2 63 - 1

/-- Cuts a bundle into its `Sections`. A part that is missing at the end is
empty. -/
def sections (bytes : List UInt8) : Except BundleFault Sections :=
  if bytes.take mark.length != mark then .error .noMark
  else
    let rest := bytes.drop mark.length
    let length := ofBigEndian (rest.take lengthSize)
    let rest := rest.drop lengthSize
    if length > maxLength then .error .hugeLength
    else .ok ⟨rest.take length, rest.drop length⟩

def readManifest (bytes : List UInt8) : Except BundleFault Value :=
  match decodeStrict bytes with
  | .error f => .error (.manifest (undecodableMessage f))
  | .ok cs =>
    match Json.readDocument ⟨.brief, true⟩ (cs.map .scalar) with
    | .error f => .error (.manifest (f.message (cs.map .scalar)))
    | .ok v => .ok v.toValue

/-- Reads the `sections` of a bundle: its manifest and its script. -/
def unpack (bytes : List UInt8) : Except BundleFault (Value × List UInt8) := do
  let parts ← sections bytes
  let manifest ← readManifest parts.manifest
  match Codec.Gzip.decompress parts.payload with
  | .ok script => .ok (manifest, script)
  | .error f => .error (.payload f.message)

end TaskShell.Bundle
