import TaskShell.Value

/-!
# Documents

The values that JSON texts stand for. A JSON text may name half of a surrogate
pair, and a text may hold such a half as it stands, so texts are sequences of
code points here and not of characters.
-/

namespace TaskShell.Json

/-- A code point: a character, or half of a surrogate pair. -/
inductive Sign where
  | scalar (c : Char)
  | half (n : Fin 2048)
  deriving DecidableEq, Repr

instance : Coe Char Sign := ⟨.scalar⟩

namespace Sign

/-- The number of the first half, `0xD800`. -/
def firstHalf : Nat := 0xD800

def ofNat (n : Nat) : Sign :=
  if firstHalf ≤ n && n ≤ 0xDFFF then .half (Fin.ofNat 2048 (n - firstHalf))
  else .scalar (Char.ofNat n)

def toNat : Sign → Nat
  | scalar c => c.toNat
  | half n => firstHalf + n

def isHalf : Sign → Bool
  | scalar _ => false
  | half _ => true

/-- The character of a code point; that of a half is the one for what cannot be
shown. -/
def char : Sign → Char
  | scalar c => c
  | half _ => Char.ofNat 0xFFFD

end Sign

def signs (text : String) : List Sign := text.toList.map .scalar

/-- The text of some code points, as far as it has one. -/
def textOf (cs : List Sign) : String := String.ofList (cs.map Sign.char)

inductive Doc where
  | null
  | bool (b : Bool)
  | int (i : Int)
  | float (x : Float)
  | text (cs : List Sign)
  | list (items : List Doc)
  | record (fields : List (List Sign × Doc))
  deriving Inhabited

abbrev Fields := List (List Sign × Doc)

/-- Sets a field; a later field of the same name replaces an earlier one in its
place. -/
def setField : Fields → List Sign → Doc → Fields
  | [], k, v => [(k, v)]
  | (name, old) :: rest, k, v =>
    if name == k then (k, v) :: rest else (name, old) :: setField rest k v

namespace Doc

mutual

def ofValue : Value → Doc
  | .null => .null
  | .bool b => .bool b
  | .int i => .int i
  | .float x => .float x
  | .text t => .text (signs t)
  | .list items => .list (ofItems items)
  | .record fields => .record (ofFields fields)

def ofItems : List Value → List Doc
  | [] => []
  | v :: rest => ofValue v :: ofItems rest

def ofFields : List (String × Value) → Fields
  | [] => []
  | (k, v) :: rest => (signs k, ofValue v) :: ofFields rest

end

mutual

/-- A document as a value, as far as its texts are texts. -/
def toValue : Doc → Value
  | .null => .null
  | .bool b => .bool b
  | .int i => .int i
  | .float x => .float x
  | .text cs => .text (textOf cs)
  | .list items => .list (toItems items)
  | .record fields => .record (toFields fields)

def toItems : List Doc → List Value
  | [] => []
  | v :: rest => v.toValue :: toItems rest

def toFields : Fields → List (String × Value)
  | [] => []
  | (k, v) :: rest => (textOf k, v.toValue) :: toFields rest

end

end Doc

end TaskShell.Json
