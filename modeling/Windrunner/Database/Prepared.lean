import Windrunner.Lib.Find

/-!
# Statements that are bound as text

`SqlPlainPreparedStatement` has no statement on the server: `bind` writes the parameters into the text, each
for the next `?` behind the one before it.

* `bind_eq`: every `?` of the statement is replaced, and none of what is written for it.
-/

namespace Windrunner

open List

/-- A parameter. Its integers have any size; a `float` or `double` comes with what the stream writes for
it, whatever that is. -/
inductive SqlStmtFieldData where
  | bool (x : Bool)
  | unsigned (x : Nat)
  | signed (x : Int)
  | float (text : List Char)
  | double (text : List Char)
  | string (s : List Char)

namespace SqlPlainPreparedStatement

variable (escapeString : List Char → List Char)

/-- `DataToString`. A text is handed over as a C string, which ends before the first zero. -/
def dataToString (data : SqlStmtFieldData) : List Char :=
  '\'' :: (match data with
    | .bool x => [if x then '1' else '0']
    | .unsigned x => Nat.toDigits 10 x
    | .signed x => (if x < 0 then ['-'] else []) ++ Nat.toDigits 10 x.natAbs
    | .float text | .double text => text
    | .string s => escapeString (s.takeWhile (· ≠ '\x00'))) ++ ['\'']

/-- A round of the loop of `bind`, on the request and `nLastPos` -/
def bindOne (r : List Char × Nat) (data : SqlStmtFieldData) : List Char × Nat :=
  match Lib.findFrom r.1 '?' r.2 with
  | none => r
  | some nLastPos =>
    let tmp := dataToString escapeString data
    (r.1.take nLastPos ++ tmp ++ r.1.drop (nLastPos + 1), nLastPos + tmp.length)

/-- `none` where the assertion fails -/
def bind (fmt : List Char) (params : List SqlStmtFieldData) : Option (List Char) :=
  if fmt.count '?' ≠ params.length then none
  else some (params.foldl (bindOne escapeString) (fmt, 0)).1

/-- A text with the places in it filled, all at once -/
def fill : List Char → List (List Char) → List Char
  | [], _ => []
  | c :: s, ps => if c = '?' then ps.headD [] ++ fill s ps.tail else c :: fill s ps

variable {w s p : List Char} {l : List (List Char)}

theorem fill_append (hw : '?' ∉ w) : fill (w ++ s) l = w ++ fill s l := by
  induction w with
  | nil => rfl
  | cons c w ih =>
    rw [mem_cons, not_or] at hw
    rw [cons_append, fill, if_neg (Ne.symm hw.1), ih hw.2, cons_append]

variable {escapeString} in
/-- What is already written is `p`, and the search goes on behind it. -/
theorem foldl_bindOne {params : List SqlStmtFieldData} (h : s.count '?' = params.length) :
    (params.foldl (bindOne escapeString) (p ++ s, p.length)).1 =
      p ++ fill s (params.map (dataToString escapeString)) := by
  induction params generalizing s p with
  | nil =>
    have hs : '?' ∉ s := count_eq_zero.1 h
    simpa [fill] using (fill_append (s := []) (l := []) hs).symm
  | cons d params ih =>
    have hmem : '?' ∈ s := count_pos_iff.1 (by simp [h])
    obtain ⟨w, s', rfl, hw⟩ := eq_append_cons_of_mem hmem
    have hrest : s'.count '?' = params.length := by
      simpa [count_eq_zero.2 hw] using h
    have hone : bindOne escapeString (p ++ (w ++ '?' :: s'), p.length) d =
        (p ++ w ++ dataToString escapeString d ++ s',
          (p ++ w ++ dataToString escapeString d).length) := by
      have hfind := Lib.findFrom_append (a := p) (b := s') hw
      rw [append_assoc] at hfind
      simp [bindOne, hfind, take_length_add_append, Nat.add_assoc]
    rw [foldl_cons, hone, ih hrest, fill_append hw]
    simp [fill]

/-- Statements with any number of places, parameters of every type and any escape function -/
theorem bind_eq (fmt : List Char) (params : List SqlStmtFieldData) :
    bind escapeString fmt params = if fmt.count '?' = params.length then
      some (fill fmt (params.map (dataToString escapeString))) else none := by
  unfold bind
  rw [ite_not]
  split
  · rename_i h
    exact congrArg some (foldl_bindOne (p := []) h)
  · rfl

end SqlPlainPreparedStatement

end Windrunner
