import Mathlib.Algebra.Order.Ring.Rat

/-!
# JSON Texts

`JSON.parse`: the value of a text, or a `SyntaxError`. Numbers are exact rationals. A surrogate
without its partner, which a JavaScript string may hold, is replaced.
-/

/-- The value of a JSON text. -/
inductive Json where
  | null
  | bool (b : Bool)
  | num (q : ℚ)
  | str (s : String)
  | arr (elements : List Json)
  -- The members in their order; of two with one name, the later one counts.
  | obj (members : List (String × Json))

namespace Json

/-- `v.name`; the outer `none` is the `TypeError` that `null` has no properties, the inner one is
`undefined`. -/
def property (name : String) : Json → Option (Option Json)
  | .null => none
  | .obj members => some ((members.reverse.find? fun e => e.1 = name).map Prod.snd)
  | _ => some none

def asNum : Json → Option ℚ
  | .num q => some q
  | _ => none

def asStr : Json → Option String
  | .str s => some s
  | _ => none

/-- The members of an object whose values are all numbers. -/
def asNumbers : Json → Option (List (String × ℚ))
  | .obj members => members.mapM fun e => (asNum e.2).map fun q => (e.1, q)
  | _ => none

/-! ## Parsing -/

def isSpace (c : Char) : Bool := c = ' ' ∨ c = '\t' ∨ c = '\n' ∨ c = '\r'

def skipSpace (cs : List Char) : List Char := cs.dropWhile isSpace

/-- The digits at the front of a text, at least one: their value and their number. -/
def digitRun (cs : List Char) : Option (Nat × Nat × List Char) :=
  let ds := cs.takeWhile Char.isDigit
  if ds.isEmpty then none
  else some (ds.foldl (fun v d => 10 * v + (d.toNat - 48)) 0, ds.length, cs.dropWhile Char.isDigit)

/-- `.digits`, if it is there. -/
def fraction : List Char → Option (ℚ × List Char)
  | '.' :: cs => (digitRun cs).map fun (n, k, rest) => ((n : ℚ) / 10 ^ k, rest)
  | cs => some (0, cs)

/-- The digits of an exponent. -/
def scaled (q : ℚ) (negative : Bool) (cs : List Char) : Option (ℚ × List Char) :=
  (digitRun cs).map fun (n, _, rest) => (if negative then q / 10 ^ n else q * 10 ^ n, rest)

/-- `e+digits` and its variants, if it is there: what the number is then. -/
def exponent (q : ℚ) : List Char → Option (ℚ × List Char)
  | 'e' :: '-' :: cs | 'E' :: '-' :: cs => scaled q true cs
  | 'e' :: '+' :: cs | 'E' :: '+' :: cs => scaled q false cs
  | 'e' :: cs | 'E' :: cs => scaled q false cs
  | cs => some (q, cs)

/-- A number without its sign; a leading zero stands alone. -/
def magnitude (cs : List Char) : Option (ℚ × List Char) := do
  let (n, k, rest) ← digitRun cs
  if cs.head? = some '0' ∧ k ≠ 1 then none
  else do
    let (f, rest) ← fraction rest
    exponent (n + f) rest

def number : List Char → Option (ℚ × List Char)
  | '-' :: cs => (magnitude cs).map fun r => (-r.1, r.2)
  | cs => magnitude cs

def hexDigit (c : Char) : Option Nat :=
  if c.isDigit then some (c.toNat - 48)
  else if 'a' ≤ c ∧ c ≤ 'f' then some (c.toNat - 87)
  else if 'A' ≤ c ∧ c ≤ 'F' then some (c.toNat - 55)
  else none

/-- The UTF-16 code unit of four hexadecimal digits. -/
def codeUnit : List Char → Option (Nat × List Char)
  | a :: b :: c :: d :: cs => do
    let n := (((← hexDigit a) * 16 + (← hexDigit b)) * 16 + (← hexDigit c)) * 16 + (← hexDigit d)
    pure (n, cs)
  | _ => none

/-- The character of an escape `\u`, of two of them for a pair of surrogates. -/
def unicode (cs : List Char) : Option (Char × List Char) := do
  let (high, rest) ← codeUnit cs
  if 0xD800 ≤ high ∧ high < 0xDC00 then
    match rest with
    | '\\' :: 'u' :: rest' => do
      let (low, rest'') ← codeUnit rest'
      if 0xDC00 ≤ low ∧ low < 0xE000 then
        pure (Char.ofNat (0x10000 + (high - 0xD800) * 1024 + (low - 0xDC00)), rest'')
      else pure ('\uFFFD', rest)
    | _ => pure ('\uFFFD', rest)
  else if 0xDC00 ≤ high ∧ high < 0xE000 then pure ('\uFFFD', rest)
  else pure (Char.ofNat high, rest)

/-- The character of an escape. -/
def escape : List Char → Option (Char × List Char)
  | '"' :: cs => some ('"', cs)
  | '\\' :: cs => some ('\\', cs)
  | '/' :: cs => some ('/', cs)
  | 'b' :: cs => some (Char.ofNat 8, cs)
  | 'f' :: cs => some (Char.ofNat 12, cs)
  | 'n' :: cs => some ('\n', cs)
  | 'r' :: cs => some ('\r', cs)
  | 't' :: cs => some ('\t', cs)
  | 'u' :: cs => unicode cs
  | _ => none

/-- The rest of a string after its opening quote. -/
def stringRest : Nat → List Char → Option (List Char × List Char)
  | 0, _ => none
  | fuel + 1, cs =>
    match cs with
    | [] => none
    | '"' :: rest => some ([], rest)
    | '\\' :: rest => do
      let (c, rest) ← escape rest
      let (text, rest) ← stringRest fuel rest
      pure (c :: text, rest)
    | c :: rest =>
      if c.toNat < 0x20 then none
      else do
        let (text, rest) ← stringRest fuel rest
        pure (c :: text, rest)

mutual

/-- A value at the front of a text. -/
def value : Nat → List Char → Option (Json × List Char)
  | 0, _ => none
  | fuel + 1, cs =>
    match skipSpace cs with
    | 'n' :: 'u' :: 'l' :: 'l' :: rest => some (.null, rest)
    | 't' :: 'r' :: 'u' :: 'e' :: rest => some (.bool true, rest)
    | 'f' :: 'a' :: 'l' :: 's' :: 'e' :: rest => some (.bool false, rest)
    | '"' :: rest => (stringRest fuel rest).map fun r => (.str (String.ofList r.1), r.2)
    | '[' :: rest =>
      match skipSpace rest with
      | ']' :: rest => some (.arr [], rest)
      | rest => (elements fuel rest).map fun r => (.arr r.1, r.2)
    | '{' :: rest =>
      match skipSpace rest with
      | '}' :: rest => some (.obj [], rest)
      | rest => (members fuel rest).map fun r => (.obj r.1, r.2)
    | rest => (number rest).map fun r => (.num r.1, r.2)

/-- The elements of an array and its closing bracket. -/
def elements : Nat → List Char → Option (List Json × List Char)
  | 0, _ => none
  | fuel + 1, cs => do
    let (v, rest) ← value fuel cs
    match skipSpace rest with
    | ',' :: rest => (elements fuel rest).map fun r => (v :: r.1, r.2)
    | ']' :: rest => some ([v], rest)
    | _ => none

/-- The members of an object and its closing brace. -/
def members : Nat → List Char → Option (List (String × Json) × List Char)
  | 0, _ => none
  | fuel + 1, cs =>
    match skipSpace cs with
    | '"' :: rest => do
      let (name, rest) ← stringRest fuel rest
      match skipSpace rest with
      | ':' :: rest => do
        let (v, rest) ← value fuel rest
        match skipSpace rest with
        | ',' :: rest => (members fuel rest).map fun r => ((String.ofList name, v) :: r.1, r.2)
        | '}' :: rest => some ([(String.ofList name, v)], rest)
        | _ => none
      | _ => none
    | _ => none

end

/-- `JSON.parse`; `none` is the `SyntaxError`. A step of the descent that takes no character is
followed by one that does, so the fuel suffices. -/
def parse (text : String) : Option Json :=
  match value (2 * text.length + 2) text.toList with
  | some (v, rest) => if skipSpace rest = [] then some v else none
  | none => none

end Json
