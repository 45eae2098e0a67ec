import Mathlib.Data.Int.Notation
import Mathlib.Data.List.Infix

/-!
# JSON text

Values, the text that they are printed as, and the scanner that reads a text. The dialect is the one
with `NaN` and `Infinity`; everything outside ASCII is escaped. A string is a list of code points,
surrogates included. Printing and scanning descend to a limited depth, and numbers have a limited
number of digits.
-/

namespace FastGeoApi.Json

abbrev CodePoint := Fin 0x110000

abbrev Text := List CodePoint

def codePoint (n : Nat) : CodePoint := ⟨n % 0x110000, Nat.mod_lt n (by decide)⟩

/-- A number as it is written. -/
structure Number where
  negative : Bool
  whole : List Char
  /-- The digits after the point; none when there is no point. -/
  frac : List Char
  /-- The exponent, from its letter on. -/
  exp : List Char

inductive Literal where
  | nan
  | infinity (negative : Bool)
  | number (n : Number)

inductive Value where
  | null
  | bool (b : Bool)
  | int (i : Int)
  | float (x : Literal)
  | str (s : Text)
  | arr (items : List Value)
  | obj (members : List (Text × Value))

inductive Error where
  | malformed (msg : String)
  /-- An integer has too many digits. -/
  | digits
  /-- Containers are nested too deep. -/
  | depth
  /-- The fuel is used up. -/
  | stuck
  deriving DecidableEq

structure Limits where
  /-- The most digits of an integer. -/
  digits : Nat
  printDepth : Nat
  scanDepth : Nat
  /-- A float has at most 17 digits before its point. -/
  digits_le : 17 ≤ digits
  /-- The scanner is native code, and goes deeper than the printer. -/
  depth_le : printDepth ≤ scanDepth

/-! ## Printing -/

/-- The characters with an escape of two characters, and its second one. -/
def shortEscapes : List (Nat × Char) :=
  [(0x22, '"'), (0x5c, '\\'), (0x08, 'b'), (0x0c, 'f'), (0x0a, 'n'), (0x0d, 'r'), (0x09, 't')]

def hexEscape (n : Nat) : List Char :=
  ['\\', 'u', (n / 0x1000 % 16).digitChar, (n / 0x100 % 16).digitChar, (n / 0x10 % 16).digitChar,
    (n % 16).digitChar]

def escape (c : CodePoint) : List Char :=
  match shortEscapes.lookup c.val with
  | some e => ['\\', e]
  | none =>
    if 0x20 ≤ c.val ∧ c.val ≤ 0x7e then [Char.ofNat c.val]
    else if c.val < 0x10000 then hexEscape c.val
    else
      -- a surrogate pair
      hexEscape (0xd800 + (c.val - 0x10000) / 0x400) ++
        hexEscape (0xdc00 + (c.val - 0x10000) % 0x400)

def quote (s : Text) : List Char := '"' :: (s.flatMap escape ++ ['"'])

def Number.text (n : Number) : List Char :=
  (if n.negative then ['-'] else []) ++ n.whole ++
    (if n.frac = [] then [] else '.' :: n.frac) ++ n.exp

def Literal.text : Literal → List Char
  | .nan => "NaN".toList
  | .infinity false => "Infinity".toList
  | .infinity true => "-Infinity".toList
  | .number n => n.text

/-- What is printed, up to the error that ends it. -/
structure Output where
  text : List Char
  error : Option Error := none

/-- One output after the other. -/
def Output.andThen (a b : Output) : Output :=
  match a.error with
  | none => ⟨a.text ++ b.text, b.error⟩
  | some _ => a

/-- The items after the first one, and the closing bracket. -/
def printTail (close : Char) : List Output → Output
  | [] => ⟨[close], none⟩
  | item :: items =>
    Output.andThen ⟨[',', ' '], none⟩ (item.andThen (printTail close items))

def printContainer (opening close : Char) : List Output → Output
  | [] => ⟨[opening, close], none⟩
  | item :: items => Output.andThen ⟨[opening], none⟩ (item.andThen (printTail close items))

def printInt (maxDigits : Nat) (i : Int) : Output :=
  let digits := Nat.toDigits 10 i.natAbs
  if digits.length ≤ maxDigits then ⟨if i < 0 then '-' :: digits else digits, none⟩
  else ⟨[], some .digits⟩

mutual
/-- The text of a value, printed with this depth left. -/
def print (maxDigits : Nat) : Value → Nat → Output
  | .null, _ => ⟨"null".toList, none⟩
  | .bool true, _ => ⟨"true".toList, none⟩
  | .bool false, _ => ⟨"false".toList, none⟩
  | .int i, _ => printInt maxDigits i
  | .float x, _ => ⟨x.text, none⟩
  | .str s, _ => ⟨quote s, none⟩
  | .arr _, 0 | .obj _, 0 => ⟨[], some .depth⟩
  | .arr items, depth + 1 => printContainer '[' ']' (printItems maxDigits items depth)
  | .obj members, depth + 1 => printContainer '\x7b' '\x7d' (printMembers maxDigits members depth)

def printItems (maxDigits : Nat) : List Value → Nat → List Output
  | [], _ => []
  | v :: items, depth => print maxDigits v depth :: printItems maxDigits items depth

def printMembers (maxDigits : Nat) : List (Text × Value) → Nat → List Output
  | [], _ => []
  | (key, v) :: members, depth =>
    Output.andThen ⟨quote key ++ [':', ' '], none⟩ (print maxDigits v depth) ::
      printMembers maxDigits members depth
end

/-! ## Scanning -/

/-! A scanner gives what it has read and what is left of the text. -/

def skipWs (cs : List Char) : List Char := cs.dropWhile (· ∈ [' ', '\t', '\n', '\r'])

def hexVal (c : Char) : Option Nat :=
  if c.isDigit then some (c.toNat - '0'.toNat)
  else if 'a' ≤ c ∧ c ≤ 'f' then some (c.toNat - 'a'.toNat + 10)
  else if 'A' ≤ c ∧ c ≤ 'F' then some (c.toNat - 'A'.toNat + 10)
  else none

def hex4 (a b c d : Char) : Option CodePoint := do
  return codePoint
    ((← hexVal a) * 0x1000 + (← hexVal b) * 0x100 + (← hexVal c) * 0x10 + (← hexVal d))

/-- The character that an escape of two characters stands for. -/
def unescape? (e : Char) : Option CodePoint :=
  if e = '/' then some 0x2f
  else (shortEscapes.find? (·.2 = e)).map fun entry => codePoint entry.1

def unterminated : Error := .malformed "Unterminated string starting at"

def invalidHex : Error := .malformed "Invalid \\uXXXX escape"

/-- The code points of a string, behind its opening quote. -/
def scanUnits : List Char → Except Error (Text × List Char)
  | [] => .error unterminated
  | '\\' :: 'u' :: a :: b :: c :: d :: cs =>
    match hex4 a b c d with
    | none => .error invalidHex
    | some n =>
      if cs = [] then .error invalidHex
      else do
        let (s, rest) ← scanUnits cs
        return (n :: s, rest)
  | '\\' :: e :: cs =>
    if e = 'u' then .error invalidHex
    else
      match unescape? e with
      | none => .error (.malformed "Invalid \\escape: ")
      | some n => do
        let (s, rest) ← scanUnits cs
        return (n :: s, rest)
  | c :: cs =>
    if c = '"' then .ok ([], cs)
    else if c = '\\' then .error unterminated
    else if c.toNat < 0x20 then .error (.malformed "Invalid control character at")
    else do
      let (s, rest) ← scanUnits cs
      return (codePoint c.toNat :: s, rest)

/-- Each high surrogate that a low one follows is joined with it. -/
def joinSurrogates : Text → Text
  | high :: low :: s =>
    if (0xd800 ≤ high.val ∧ high.val ≤ 0xdbff) ∧ (0xdc00 ≤ low.val ∧ low.val ≤ 0xdfff) then
      codePoint (0x10000 + (high.val - 0xd800) * 0x400 + (low.val - 0xdc00)) :: joinSurrogates s
    else high :: joinSurrogates (low :: s)
  | s => s

def scanString (cs : List Char) : Except Error (Text × List Char) := do
  let (s, rest) ← scanUnits cs
  return (joinSurrogates s, rest)

def takeDigits (cs : List Char) : List Char := cs.takeWhile Char.isDigit

def dropDigits (cs : List Char) : List Char := cs.dropWhile Char.isDigit

def scanFrac : List Char → List Char × List Char
  | '.' :: cs => if takeDigits cs = [] then ([], '.' :: cs) else (takeDigits cs, dropDigits cs)
  | cs => ([], cs)

def scanSign : List Char → List Char × List Char
  | '+' :: cs => (['+'], cs)
  | '-' :: cs => (['-'], cs)
  | cs => ([], cs)

def scanExp : List Char → List Char × List Char
  | [] => ([], [])
  | c :: cs =>
    let sign := scanSign cs
    if (c = 'e' ∨ c = 'E') ∧ takeDigits sign.2 ≠ [] then
      (c :: (sign.1 ++ takeDigits sign.2), dropDigits sign.2)
    else ([], c :: cs)

/-- The digits before the point: a zero, or digits that do not begin with one. -/
def scanWhole : List Char → Option (List Char × List Char)
  | '0' :: cs => some (['0'], cs)
  | cs => if takeDigits cs = [] then none else some (takeDigits cs, dropDigits cs)

def scanMinus : List Char → Bool × List Char
  | '-' :: cs => (true, cs)
  | cs => (false, cs)

def scanNumber (cs : List Char) : Option (Number × List Char) :=
  let minus := scanMinus cs
  match scanWhole minus.2 with
  | none => none
  | some (whole, cs) =>
    let frac := scanFrac cs
    let exp := scanExp frac.2
    some (⟨minus.1, whole, frac.1, exp.1⟩, exp.2)

def Number.isInt (n : Number) : Bool := n.frac.isEmpty && n.exp.isEmpty

/-- The integer that the digits before the point stand for. -/
def Number.toInt (n : Number) : Int :=
  if n.negative then -(Nat.ofDigitChars 10 n.whole 0 : Int) else Nat.ofDigitChars 10 n.whole 0

/-- The value of a number: an integer, when it has neither a point nor an exponent. -/
def Number.value (maxDigits : Nat) (n : Number) : Except Error Value :=
  if n.isInt then
    if n.whole.length ≤ maxDigits then .ok (.int n.toInt) else .error .digits
  else .ok (.float (.number n))

def constants : List (List Char × Value) :=
  [("null".toList, .null), ("true".toList, .bool true), ("false".toList, .bool false),
    ("NaN".toList, .float .nan), ("Infinity".toList, .float (.infinity false)),
    ("-Infinity".toList, .float (.infinity true))]

def expectingValue : Error := .malformed "Expecting value"

/-- A value that is neither a string nor a container. -/
def scanScalar (maxDigits : Nat) (cs : List Char) : Except Error (Value × List Char) :=
  match constants.find? (·.1.isPrefixOf cs) with
  | some (text, v) => .ok (v, cs.drop text.length)
  | none =>
    match scanNumber cs with
    | none => .error expectingValue
    | some (n, rest) => do
      let v ← n.value maxDigits
      return (v, rest)

/-- What comes behind an item: the closing bracket, or a comma and the next items. -/
def scanTail (close : Char) (next : List Char → Except Error (List α × List Char))
    (cs : List Char) : Except Error (List α × List Char) :=
  match skipWs cs with
  | [] => .error (.malformed "Expecting ',' delimiter")
  | c :: cs =>
    if c = close then .ok ([], cs)
    else if c = ',' then next (skipWs cs)
    else .error (.malformed "Expecting ',' delimiter")

/-- Items up to the closing bracket; one unit of fuel for each. -/
def scanItems (close : Char) (scan : List Char → Except Error (α × List Char)) :
    Nat → List Char → Except Error (List α × List Char)
  | 0, _ => .error .stuck
  | fuel + 1, cs => do
    let (item, cs) ← scan cs
    let (items, cs) ← scanTail close (scanItems close scan fuel) cs
    return (item :: items, cs)

/-- A container, behind its opening bracket. -/
def scanContainer (close : Char) (scan : List Char → Except Error (α × List Char))
    (cs : List Char) : Except Error (List α × List Char) :=
  if (skipWs cs).head? = some close then .ok ([], (skipWs cs).tail)
  else scanItems close scan (cs.length + 1) (skipWs cs)

def scanMember (scan : List Char → Except Error (Value × List Char)) :
    List Char → Except Error ((Text × Value) × List Char)
  | [] => .error (.malformed "Expecting property name enclosed in double quotes")
  | c :: cs =>
    if c = '"' then do
      let (key, cs) ← scanString cs
      match skipWs cs with
      | ':' :: cs => do
        let (v, cs) ← scan (skipWs cs)
        return ((key, v), cs)
      | _ => .error (.malformed "Expecting ':' delimiter")
    else .error (.malformed "Expecting property name enclosed in double quotes")

/-- One value at the start of the text, with this depth left. -/
def scanOnce (maxDigits : Nat) : Nat → List Char → Except Error (Value × List Char)
  | _, [] => .error expectingValue
  | depth, c :: cs =>
    if c = '"' then do
      let (s, rest) ← scanString cs
      return (.str s, rest)
    else if c = '\x7b' then
      match depth with
      | 0 => .error .depth
      | depth + 1 => do
        let (members, rest) ← scanContainer '\x7d' (scanMember (scanOnce maxDigits depth)) cs
        return (.obj members, rest)
    else if c = '[' then
      match depth with
      | 0 => .error .depth
      | depth + 1 => do
        let (items, rest) ← scanContainer ']' (scanOnce maxDigits depth) cs
        return (.arr items, rest)
    else scanScalar maxDigits (c :: cs)

/-- A whole text. -/
def scan (limits : Limits) (cs : List Char) : Except Error Value :=
  if cs.head? = some '\ufeff' then
    .error (.malformed "Unexpected UTF-8 BOM (decode using utf-8-sig)")
  else do
    let (v, rest) ← scanOnce limits.digits limits.scanDepth (skipWs cs)
    if skipWs rest = [] then .ok v else .error (.malformed "Extra data")

end FastGeoApi.Json
