import Mathlib.Data.List.TakeWhile
import Windrunner.GuildBank.Text
import Windrunner.Lib.Escaped

/-!
# Sign-ups in the database

The players who signed up for a listing are stored as one text: a row each with `;` between them, and in a row
the fields with `|` between them. What could be read as a delimiter is escaped once, and the escapes are
removed twice, when the rows are split and when the fields are.

* `serializeSignups`, `deserializeSignups`: what is stored and what is read of it.
* `deserialize_serialize_iff`: the sign-ups are read back exactly if no text in them needs an escape in a row.
-/

namespace Windrunner

open Lib List

namespace LftManager

structure ListingSignup where
  name : Text := []
  className : Text := []
  level : UInt32 := 0
  confirmed : Bool := false
  deriving DecidableEq, Repr

def escapeListingField (value : Text) : Text :=
  escapeField '\\' (fun c => c == '\\' || c == '|' || c == ';') value

/-- The row of a sign-up -/
def serializeSignup (signup : ListingSignup) : Text :=
  escapeListingField signup.name ++ '|' :: escapeListingField signup.className ++
    '|' :: Nat.toDigits 10 signup.level.toNat ++ '|' :: (if signup.confirmed then ['1'] else ['0'])

def serializeSignups (signups : List ListingSignup) : Text :=
  signups.foldl (fun serialized signup =>
    (if serialized = [] then serialized else serialized ++ [';']) ++ serializeSignup signup) []

/-- A row, if it has enough fields -/
def deserializeSignup (row : Text) : Option ListingSignup :=
  if row = [] then none
  else
    match splitEscaped '\\' '|' row with
    | name :: className :: level :: confirmed :: _ =>
      some { name, className, level := strtoul level, confirmed := confirmed == ['1'] }
    | _ => none

def deserializeSignups (value : Text) : List ListingSignup :=
  if value = [] then [] else (splitEscaped '\\' ';' value).filterMap deserializeSignup

/-! ## Rows -/

variable {signup : ListingSignup} {signups : List ListingSignup}

/-- What is left of a row after the rows have been split -/
def storedRow (signup : ListingSignup) : Text :=
  signup.name ++ '|' :: (signup.className ++
    '|' :: (Nat.toDigits 10 signup.level.toNat ++ '|' :: (if signup.confirmed then ['1'] else ['0'])))

theorem plain_toDigits {delimiter : Char} (hd : delimiter = '|' ∨ delimiter = ';') (n : Nat) :
    ∀ c ∈ Nat.toDigits 10 n, Plain '\\' delimiter c := by
  intro c hc
  have hdigit := Nat.isDigit_of_mem_toDigits (by decide) (by decide) hc
  refine ⟨?_, ?_⟩
  · rintro rfl
    cases hdigit
  · rcases hd with rfl | rfl <;> rintro rfl <;> cases hdigit

theorem splitFrom_serializeSignup (current rest : Text) :
    splitFrom '\\' ';' current false (serializeSignup signup ++ rest) =
      splitFrom '\\' ';' (current ++ storedRow signup) false rest := by
  have hfield : ∀ current value rest : Text,
      splitFrom '\\' ';' current false (escapeListingField value ++ rest) =
        splitFrom '\\' ';' (current ++ value) false rest := fun _ _ _ =>
    splitFrom_escapeField rfl rfl
  have hbar : ∀ current rest : Text, splitFrom '\\' ';' current false ('|' :: rest) =
      splitFrom '\\' ';' (current ++ ['|']) false rest := fun _ rest =>
    @splitFrom_plain _ _ '\\' ';' _ ['|'] rest (by simp [Plain])
  have hend : ∀ current : Text,
      splitFrom '\\' ';' current false ((if signup.confirmed then ['1'] else ['0']) ++ rest) =
        splitFrom '\\' ';' (current ++ if signup.confirmed then ['1'] else ['0']) false rest :=
    fun _ => splitFrom_plain (by split_ifs <;> simp [Plain])
  unfold serializeSignup storedRow
  simp only [append_assoc, cons_append]
  rw [hfield, hbar, hfield, hbar, splitFrom_plain (plain_toDigits (.inr rfl) _), hbar, hend]
  simp

theorem serializeSignup_ne_nil : serializeSignup signup ≠ [] := by simp [serializeSignup]

theorem storedRow_ne_nil : storedRow signup ≠ [] := by simp [storedRow]

/-- After the first row there is a delimiter before each. -/
theorem foldl_serialize (acc : Text) (h : acc ≠ []) :
    signups.foldl (fun serialized signup =>
      (if serialized = [] then serialized else serialized ++ [';']) ++ serializeSignup signup) acc =
      acc ++ signups.flatMap fun signup => ';' :: serializeSignup signup := by
  induction signups generalizing acc with
  | nil => simp
  | cons signup signups ih =>
    rw [foldl_cons, if_neg h, ih _ (by simp)]
    simp

theorem serializeSignups_ne_nil (h : signups ≠ []) : serializeSignups signups ≠ [] := by
  cases signups with
  | nil => exact absurd rfl h
  | cons signup signups =>
    unfold serializeSignups
    rw [foldl_cons, if_pos rfl, nil_append, foldl_serialize _ serializeSignup_ne_nil]
    simp [serializeSignup_ne_nil]

theorem splitFrom_rows (current : Text) :
    splitFrom '\\' ';' current false (signups.flatMap fun signup => ';' :: serializeSignup signup) =
      current :: signups.map storedRow := by
  induction signups generalizing current with
  | nil => rfl
  | cons signup signups ih =>
    rw [flatMap_cons, cons_append, splitFrom_delimiter (by decide), splitEscaped,
      splitFrom_serializeSignup, ih]
    rfl

/-- The rows come back as they were stored, but for their escapes. -/
theorem splitEscaped_serialize (h : signups ≠ []) :
    splitEscaped '\\' ';' (serializeSignups signups) = signups.map storedRow := by
  cases signups with
  | nil => exact absurd rfl h
  | cons signup signups =>
    unfold serializeSignups splitEscaped
    rw [foldl_cons, if_pos rfl, nil_append, foldl_serialize _ serializeSignup_ne_nil,
      splitFrom_serializeSignup, splitFrom_rows]
    rfl

/-! ## Fields -/

theorem strtoul_toDigits (level : UInt32) : strtoul (Nat.toDigits 10 level.toNat) = level := by
  have hdigit : ∀ c ∈ Nat.toDigits 10 level.toNat, isDigit c = true := fun c hc => by
    have h := Nat.isDigit_of_mem_toDigits (by decide) (by decide) hc
    unfold Char.isDigit at h
    unfold isDigit
    simpa [Char.le_def] using h
  have hnumber : scanNumber (Nat.toDigits 10 level.toNat) = (false, level.toNat) := by
    obtain ⟨c, rest, hcons⟩ := exists_cons_of_ne_nil
      (@Nat.toDigits_ne_nil level.toNat 10)
    have hc : isDigit c = true := hdigit c (by simp [hcons])
    have hspace : isSpace c = false := by
      by_contra hspace
      simp only [isSpace, Bool.not_eq_false, Bool.or_eq_true, beq_iff_eq] at hspace
      rcases hspace with ((((rfl | rfl) | rfl) | rfl) | rfl) | rfl <;> cases hc
    have hsign : c ≠ '-' ∧ c ≠ '+' := by
      refine ⟨?_, ?_⟩ <;> rintro rfl <;> cases hc
    have htake : (Nat.toDigits 10 level.toNat).takeWhile isDigit = Nat.toDigits 10 level.toNat := by
      rw [takeWhile_eq_self_iff]
      exact hdigit
    have hvalue : (Nat.toDigits 10 level.toNat).foldl (fun n c => 10 * n + (c.toNat - 48)) 0 =
        level.toNat := Nat.ofDigitChars_ten_toDigits
    unfold scanNumber
    rw [hcons] at htake hvalue ⊢
    rw [dropWhile_cons, if_neg (by simp [hspace])]
    dsimp only
    split
    · rename_i he
      exact absurd (cons.inj he).1 hsign.1
    · rename_i he
      exact absurd (cons.inj he).1 hsign.2
    · rw [htake, hvalue]
  have hlt := level.toNat_lt
  unfold strtoul
  rw [hnumber]
  dsimp only
  rw [if_neg (by omega), if_neg (by simp)]
  exact UInt32.ofNat_toNat

/-- No text of the sign-up needs an escape in its row. -/
def ListingSignup.Plain (signup : ListingSignup) : Prop :=
  (∀ c ∈ signup.name, Lib.Plain '\\' '|' c) ∧ ∀ c ∈ signup.className, Lib.Plain '\\' '|' c

theorem splitEscaped_field {field rest : Text} (h : ∀ c ∈ field, Plain '\\' '|' c) :
    splitEscaped '\\' '|' (field ++ '|' :: rest) = field :: splitEscaped '\\' '|' rest := by
  rw [splitEscaped, splitFrom_plain h, splitFrom_delimiter (by decide)]
  rfl

theorem splitEscaped_last (signup : ListingSignup) :
    splitEscaped '\\' '|' (Nat.toDigits 10 signup.level.toNat ++
      '|' :: (if signup.confirmed then ['1'] else ['0'])) =
      [Nat.toDigits 10 signup.level.toNat, if signup.confirmed then ['1'] else ['0']] := by
  rw [splitEscaped_field (plain_toDigits (.inl rfl) _)]
  cases signup.confirmed <;> rfl

theorem deserialize_storedRow_iff :
    deserializeSignup (storedRow signup) = some signup ↔ signup.Plain := by
  unfold deserializeSignup
  rw [if_neg storedRow_ne_nil]
  constructor
  · intro h
    split at h
    · rename_i name className level confirmed _ hfields
      have hname : name = signup.name := congrArg ListingSignup.name (Option.some.inj h)
      have hclass : className = signup.className :=
        congrArg ListingSignup.className (Option.some.inj h)
      have hfirst : firstField '\\' '|' (storedRow signup) = signup.name := by
        rw [firstField, hfields, headD_cons, hname]
      have hplain := (firstField_eq_iff (by decide)).1 hfirst
      rw [storedRow, splitEscaped_field hplain] at hfields
      have hsecond : firstField '\\' '|' (signup.className ++ '|' ::
          (Nat.toDigits 10 signup.level.toNat ++ '|' :: (if signup.confirmed then ['1'] else ['0']))) =
          signup.className := by
        rw [firstField, (cons.inj hfields).2, headD_cons, hclass]
      exact ⟨hplain, (firstField_eq_iff (by decide)).1 hsecond⟩
    · cases h
  · rintro ⟨hname, hclass⟩
    rw [storedRow, splitEscaped_field hname, splitEscaped_field hclass, splitEscaped_last]
    dsimp only
    rw [strtoul_toDigits]
    cases signup with
    | mk name className level confirmed => cases confirmed <;> rfl

theorem filterMap_eq_self_iff {α : Type} (f : α → Option α) (l : List α) :
    l.filterMap f = l ↔ ∀ a ∈ l, f a = some a := by
  induction l with
  | nil => simp
  | cons a l ih =>
    rw [forall_mem_cons, ← ih]
    cases hf : f a with
    | none =>
      rw [filterMap_cons_none hf]
      refine iff_of_false (fun h => ?_) (by simp)
      have hlen := length_filterMap_le f l
      rw [h, length_cons] at hlen
      omega
    | some b =>
      rw [filterMap_cons_some hf]
      simp

/-- The sign-ups are read back exactly if there is no bar and no backslash in the names of the players and
of their classes. -/
theorem deserialize_serialize_iff (signups : List ListingSignup) :
    deserializeSignups (serializeSignups signups) = signups ↔ ∀ signup ∈ signups, signup.Plain := by
  by_cases hnil : signups = []
  · subst hnil
    exact iff_of_true rfl (by simp)
  unfold deserializeSignups
  rw [if_neg (serializeSignups_ne_nil hnil), splitEscaped_serialize hnil, filterMap_map,
    filterMap_eq_self_iff]
  exact forall₂_congr fun signup _ => deserialize_storedRow_iff

theorem bar_not_read : ¬ ∀ signups, deserializeSignups (serializeSignups signups) = signups := by
  intro h
  have hname := h [{ name := ['A', '|', 'b'] }]
  exact absurd hname (by decide)

end LftManager

end Windrunner
