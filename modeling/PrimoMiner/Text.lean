import Mathlib.Algebra.Group.Int.Defs
import Mathlib.Algebra.Group.Nat.Defs
import Mathlib.Data.Rat.Defs

/-!
# C texts and JSON values

A C string is a `String` whose characters stand for its bytes; the terminating NUL is left out.
`Json` is a value of the JSON library, with the accessors the stratum code calls.  An accessor of
an absent value gives an absent value, as the library's do on `NULL`.
-/

namespace PrimoMiner

/-- `snprintf(buf, cap, "%s", s)`: the first `cap - 1` bytes. -/
def snprintf (cap : Nat) (s : String) : String := String.ofList (s.toList.take (cap - 1))

theorem snprintf_eq_self {cap : Nat} {s : String} (h : s.toList.length < cap) :
    snprintf cap s = s := by
  unfold snprintf
  rw [List.take_of_length_le (by omega), String.ofList_toList]

theorem snprintf_ne_empty {cap : Nat} {s : String} (hcap : 1 < cap) (hs : s ≠ "") :
    snprintf cap s ≠ "" := by
  intro h
  have hlist : s.toList.take (cap - 1) = [] := by
    have := congrArg String.toList h
    simpa [snprintf] using this
  rw [List.take_eq_nil_iff] at hlist
  rcases hlist with hzero | hnil
  · omega
  · exact hs (String.toList_eq_nil_iff.mp hnil)

def strcasecmpEq (a b : String) : Bool :=
  a.toList.map Char.toLower == b.toList.map Char.toLower

/-- `strncasecmp(s, start, strlen(start)) == 0`. -/
def startsWithNoCase (s start : String) : Bool :=
  (s.toList.take start.toList.length).map Char.toLower == start.toList.map Char.toLower

/-- `strstr`: the text from the first occurrence of `needle` on. -/
def strstr (needle : List Char) : List Char → Option (List Char)
  | [] => if needle = [] then some [] else none
  | c :: cs => if needle.isPrefixOf (c :: cs) then some (c :: cs) else strstr needle cs

def isSpace (c : Char) : Bool := c == ' ' || (9 ≤ c.toNat && c.toNat ≤ 13)

def decimalValue (digits : List Char) : Nat :=
  digits.foldl (fun acc c => 10 * acc + (c.toNat - '0'.toNat)) 0

/-- White space, a sign and decimal digits: the sign, the value and the text left.  `none` when there
is no digit. -/
def scanDecimal (s : List Char) : Option (Bool × Nat × List Char) :=
  let text := s.dropWhile isSpace
  let (negative, text) := match text with
    | '-' :: rest => (true, rest)
    | '+' :: rest => (false, rest)
    | rest => (false, rest)
  let digits := text.takeWhile Char.isDigit
  if digits = [] then none
  else some (negative, decimalValue digits, text.dropWhile Char.isDigit)

/-- `strtol(s, &end, 10)`: the value, saturated to a 64-bit `long`, and the text at `end`. -/
def strtol (s : List Char) : Int × List Char :=
  match scanDecimal s with
  | none => (0, s)
  | some (negative, value, rest) =>
    (max (-2 ^ 63) (min (2 ^ 63 - 1) (if negative then -(value : Int) else value)), rest)

/-- `strtoul(s, &end, 10)` for a 64-bit `unsigned long`: a minus sign negates modulo `2 ^ 64`. -/
def strtoul (s : List Char) : Nat × List Char :=
  match scanDecimal s with
  | none => (0, s)
  | some (negative, value, rest) =>
    if 2 ^ 64 ≤ value then (2 ^ 64 - 1, rest)
    else (if negative then (2 ^ 64 - value) % 2 ^ 64 else value, rest)

inductive Json where
  | null
  | bool (b : Bool)
  | integer (i : Int)
  | real (q : ℚ)
  | string (s : String)
  | array (items : List Json)
  | object (members : List (String × Json))

namespace Json

def objectGet (v : Json) (key : String) : Option Json :=
  match v with
  | .object members => (members.find? fun m => m.1 == key).map (·.2)
  | _ => none

def arrayGet (v : Option Json) (i : Nat) : Option Json :=
  match v with
  | some (.array items) => items[i]?
  | _ => none

def stringValue (v : Option Json) : Option String :=
  match v with
  | some (.string s) => some s
  | _ => none

def isTrue (v : Option Json) : Bool :=
  match v with
  | some (.bool b) => b
  | _ => false

def isNull (v : Option Json) : Bool :=
  match v with
  | some .null => true
  | _ => false

end Json

end PrimoMiner
