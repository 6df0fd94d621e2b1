import Mathlib.Data.UInt

/-!
# Texts of addon messages

An addon message is one line of text that the server matches with `strstr` and cuts up with
`Tokenizer` and `atoi`. Texts are lists of characters.

* `strstr`, `strtol`, `atoi`, `strtoul`: the C library functions, with their treatment of blanks,
  signs and numbers out of range.
* `tokenizer`: the class `Tokenizer` of the shared library.
-/

namespace Windrunner

abbrev Text := List Char

def strstr (s needle : Text) : Bool := s.tails.any fun t => needle.isPrefixOf t

/-- `isspace` of the C locale. -/
def isSpace (c : Char) : Bool :=
  c == ' ' || c == '\t' || c == '\n' || c == '\x0b' || c == '\x0c' || c == '\r'

def isDigit (c : Char) : Bool := '0' ≤ c && c ≤ '9'

/-- The number a text starts with: its sign and its digits, `0` without digits. -/
def scanNumber (s : Text) : Bool × Nat :=
  let s := s.dropWhile isSpace
  let (neg, s) := match s with
    | '-' :: t => (true, t)
    | '+' :: t => (false, t)
    | t => (false, t)
  (neg, (s.takeWhile isDigit).foldl (fun n c => 10 * n + (c.toNat - 48)) 0)

/-- `strtol` in base ten: clamped to the range of `long`. -/
def strtol (s : Text) : Int :=
  let (neg, n) := scanNumber s
  if neg then if 2 ^ 63 < n then -2 ^ 63 else -n
  else if 2 ^ 63 ≤ n then 2 ^ 63 - 1 else n

/-- The low 32 bits of `strtol`: what `atoi` and `atol` leave in a `uint32`. -/
def atoi (s : Text) : UInt32 := UInt32.ofNat (strtol s % 2 ^ 32).toNat

/-- `atoi` as the `int32` it is. -/
def atoiSigned (s : Text) : Int :=
  if (atoi s).toNat < 2 ^ 31 then (atoi s).toNat else (atoi s).toNat - 2 ^ 32

/-- The low 32 bits of `strtoul` in base ten: a sign negates, a number out of range is `ULONG_MAX`. -/
def strtoul (s : Text) : UInt32 :=
  let (neg, n) := scanNumber s
  if 2 ^ 64 ≤ n then UInt32.ofNat (2 ^ 32 - 1)
  else if neg then 0 - UInt32.ofNat n else UInt32.ofNat n

/-- The pieces between separators; an empty last piece is dropped. `cur` is the current piece,
backwards. -/
def tokenizerFrom (sep : Char) (cur : Text) : Text → List Text
  | [] => if cur = [] then [] else [cur.reverse]
  | c :: s => if c = sep then cur.reverse :: tokenizerFrom sep [] s else tokenizerFrom sep (c :: cur) s

def tokenizer (s : Text) (sep : Char) : List Text := tokenizerFrom sep [] s

example : tokenizer "DepositItem:0:1::20".toList ':' =
    ["DepositItem".toList, "0".toList, "1".toList, [], "20".toList] := by decide

example : (atoi " -1x".toList, atoi "4294967297".toList, atoi "".toList) = (4294967295, 1, 0) := by
  decide

/-- `std::to_string`. -/
def toStr (n : UInt32) : String := toString n.toNat

end Windrunner
