import Windrunner.PlayerDump.Line

/-!
# Which fields of a dump line are found

Where the fields before it are quoted, have no quote in them and do not end with a backslash, `findnth`
finds a field. A quote in a field is escaped and taken for the end of the field, or looked at again and
again; `NULL` has no quotes; an escaped backslash at the end makes the closing quote look escaped.

* `findnth_inv`: what is at the positions that `findnth` finds.
* `findnth_plain`: it finds a field behind plain ones.
* `Substituted`: `getnth` and `changenth` do with a field what they should.
* `substituted_iff`: for which rows that is so of all fields.
-/

namespace Windrunner

open Lib
open List hiding getElem?_eq_some_iff

namespace PlayerDump

variable {str : Text} {fuel n s e : Nat}

/-! ## What is found -/

theorem findFirst_inv (h : findFirst str s fuel = some (some e)) :
    findFrom str '\'' s = some e ∧ str[e - 1]? ≠ some '\\' := by
  induction fuel with
  | zero => cases h
  | succ fuel ih =>
    unfold findFirst at h
    split at h
    · cases h
    · rename_i e' he
      split_ifs at h with hesc
      · exact ih h
      · cases h
        exact ⟨he, hesc⟩

/-- The start is four behind a quote. -/
theorem findNext_inv {q : Nat × Nat} (hquote : str[e]? = some '\'')
    (h : findNext str e fuel = some (some q)) :
    findFrom str '\'' q.1 = some q.2 ∧ str[q.2 - 1]? ≠ some '\\' ∧
      4 ≤ q.1 ∧ str[q.1 - 4]? = some '\'' := by
  induction fuel generalizing e with
  | zero => cases h
  | succ fuel ih =>
    unfold findNext at h
    dsimp only at h
    split at h
    · cases h
    · rename_i e' he
      split_ifs at h with hesc
      · exact ih (findFrom_eq_some.1 he).2.1 h
      · cases h
        exact ⟨he, hesc, Nat.le_add_left 4 e, by simpa using hquote⟩

theorem findFields_next {p q : Nat × Nat} (h : findNext str p.2 fuel = some (some q)) :
    findFields str fuel (n + 1) p = findFields str fuel n q := by
  rw [findFields, h]

theorem findFields_succ (p : Nat × Nat) : findFields str fuel (n + 1) p =
    (findFields str fuel n p).bind fun r => r.elim (some none) fun q => findNext str q.2 fuel := by
  induction n generalizing p with
  | zero =>
    simp only [findFields, Option.bind_some, Option.elim_some]
    rcases findNext str p.2 fuel with _ | _ | q <;> rfl
  | succ n ih =>
    rcases h : findNext str p.2 fuel with _ | _ | q
    · simp [findFields, h]
    · simp [findFields, h]
    · rw [findFields_next h, findFields_next h, ih q]

/-- One field further -/
theorem findnth_succ (hn : 1 ≤ n) : findnth fuel str (n + 1) =
    (findnth fuel str n).bind fun r => r.elim (some none) fun q => findNext str q.2 fuel := by
  have hsub : n + 1 - 1 = n - 1 + 1 := by omega
  unfold findnth
  rw [hsub]
  dsimp only
  split_ifs
  · rfl
  · rcases findFirst str (((findSub str "VALUES ('".toList).getD npos + 9) % 2 ^ 64) fuel with _ | _ | e
    · rfl
    · rfl
    · exact findFields_succ _

theorem findnth_inv (hn : 1 ≤ n) {q : Nat × Nat} (h : findnth fuel str n = some (some q)) :
    findFrom str '\'' q.1 = some q.2 ∧ str[q.2 - 1]? ≠ some '\\' ∧
      (2 ≤ n → 4 ≤ q.1 ∧ str[q.1 - 4]? = some '\'') := by
  induction n, hn using Nat.le_induction generalizing q with
  | base =>
    unfold findnth at h
    dsimp only at h
    split_ifs at h
    · cases h
    · split at h
      · cases h
      · cases h
      · rename_i e he
        cases h
        exact ⟨(findFirst_inv he).1, (findFirst_inv he).2, fun h2 => absurd h2 (by decide)⟩
  | succ n hn ih =>
    rw [findnth_succ hn] at h
    obtain ⟨r, hr, hnext⟩ := Option.bind_eq_some_iff.1 h
    cases r with
    | none => cases hnext
    | some p =>
      have hquote := (findFrom_eq_some.1 (ih hr).1).2.1
      obtain ⟨hfind, hesc, hfour⟩ := findNext_inv hquote hnext
      exact ⟨hfind, hesc, fun _ => hfour⟩

/-! ## The parts of a line -/

/-- No quote, and no backslash at the end -/
def Plain (w : Text) : Prop := '\'' ∉ w ∧ w.getLast? ≠ some '\\'

theorem mem_escapeChar (c : Char) : '\'' ∈ escapeChar c ↔ c = '\'' := by
  unfold escapeChar
  split_ifs <;> simp_all [eq_comm]

theorem escapeChar_getLast (c : Char) : (escapeChar c).getLast? = some '\\' ↔ c = '\\' := by
  unfold escapeChar
  split_ifs <;> simp_all

theorem escapeChar_ne_nil (c : Char) : escapeChar c ≠ [] := by
  unfold escapeChar
  split_ifs <;> simp

/-- Escaping keeps a text plain, and makes none plain. -/
theorem plain_escape (w : Text) : Plain (mysqlRealEscapeString w) ↔ Plain w := by
  have hmem : '\'' ∈ mysqlRealEscapeString w ↔ '\'' ∈ w := by
    unfold mysqlRealEscapeString
    simp [mem_escapeChar]
  have hlast : (mysqlRealEscapeString w).getLast? = some '\\' ↔ w.getLast? = some '\\' := by
    unfold mysqlRealEscapeString
    rcases w.eq_nil_or_concat' with rfl | ⟨u, c, rfl⟩
    · rfl
    · rw [flatMap_append, flatMap_singleton, getLast?_append, getLast?_concat,
        Option.some.injEq, ← escapeChar_getLast]
      cases h : (escapeChar c).getLast? with
      | none => exact absurd (getLast?_eq_none_iff.1 h) (escapeChar_ne_nil c)
      | some d => rfl
  unfold Plain
  rw [hmem, ne_eq, hlast]

variable (t : DumpTable) (row : List (Option Text)) (k : Nat)

def header : Text :=
  "INSERT INTO ".toList ++ "`".toList ++ t.name ++ "`".toList ++ " VALUES (".toList

/-- What stands before the text of a field, up to its quote -/
def before : Text :=
  header t ++ dumpFields 0 (row.take k) ++ (if k ≠ 0 then ", ".toList else []) ++ "'".toList

def after : Text := "'".toList ++ dumpFields (k + 1) (row.drop (k + 1)) ++ ");".toList

def line : Text := createDumpString t.name row

variable {t row k}

theorem dumpFields_append (i : Nat) (l r : List (Option Text)) :
    dumpFields i (l ++ r) = dumpFields i l ++ dumpFields (i + l.length) r := by
  induction l generalizing i with
  | nil => rfl
  | cons f l ih =>
    rw [cons_append, dumpFields, dumpFields, ih, length_cons, Nat.add_assoc,
      Nat.add_comm 1 l.length]
    simp

theorem line_eq {v : Text} (h : row[k]? = some (some v)) :
    line t row = before t row k ++ fieldText v ++ after row k := by
  obtain ⟨hk, hget⟩ := List.getElem?_eq_some_iff.1 h
  have hrow : row = row.take k ++ some v :: row.drop (k + 1) := by
    rw [← hget, ← drop_eq_getElem_cons hk, take_append_drop]
  have hfields : dumpFields 0 row = dumpFields 0 (row.take k) ++ dumpFields k (some v :: row.drop (k + 1)) := by
    conv_lhs => rw [hrow]
    rw [dumpFields_append, length_take, Nat.min_eq_left hk.le, Nat.zero_add]
  unfold line createDumpString before after header
  rw [hfields]
  simp [dumpFields, dumpField]

/-- What is before a field when the one before it is known -/
theorem before_succ {f : Option Text} (h : row[k]? = some f) :
    before t row (k + 1) = header t ++ dumpFields 0 (row.take k) ++
      (if k ≠ 0 then ", ".toList else []) ++ dumpField f ++ ", '".toList := by
  obtain ⟨hk, hget⟩ := List.getElem?_eq_some_iff.1 h
  unfold before
  rw [take_succ_eq_append_getElem hk, hget, dumpFields_append, length_take,
    Nat.min_eq_left hk.le, Nat.zero_add, if_pos (Nat.succ_ne_zero k)]
  simp [dumpFields]

/-- Before a field behind one that is not `NULL` -/
theorem before_some {v : Text} (h : row[k]? = some (some v)) :
    before t row (k + 1) = before t row k ++ fieldText v ++ "', '".toList := by
  rw [before_succ h]
  unfold before
  simp [dumpField]

/-- Before a field behind a `NULL` -/
theorem before_none (h : row[k]? = some none) :
    ∃ u, before t row (k + 1) = u ++ "L, '".toList := by
  refine ⟨header t ++ dumpFields 0 (row.take k) ++ (if k ≠ 0 then ", ".toList else []) ++ "NUL".toList, ?_⟩
  rw [before_succ h]
  simp [dumpField]

theorem before_quote (t : DumpTable) (row : List (Option Text)) (k : Nat) :
    ∃ u, before t row k = u ++ ['\''] := ⟨_, rfl⟩

/-- What stands before `VALUES ('` -/
def opening (t : DumpTable) : Text := "INSERT INTO ".toList ++ "`".toList ++ t.name ++ "` ".toList

theorem before_zero : before t row 0 = opening t ++ "VALUES ('".toList := by
  unfold before header opening
  simp [dumpFields]

/-! ## Plain fields are found -/

/-- The character before the closing quote of a field -/
theorem getElem?_last (u w rest : Text) :
    (u ++ ['\''] ++ w ++ rest)[(u ++ ['\'']).length + w.length - 1]? = some '\\' ↔
      w.getLast? = some '\\' := by
  have hlast : (u ++ ['\''] ++ w ++ rest)[(u ++ ['\'']).length + w.length - 1]? =
      (u ++ ['\''] ++ w).getLast? := by
    have hlen : (u ++ ['\''] ++ w).length = (u ++ ['\'']).length + w.length := length_append
    rw [getLast?_eq_getElem?, getElem?_append_left (by simp), hlen]
  rw [hlast, getLast?_append, getLast?_concat]
  cases w.getLast? <;> simp

theorem after_eq : after row k = '\'' :: (dumpFields (k + 1) (row.drop (k + 1)) ++ ");".toList) := rfl

/-- The closing quote of a plain field is found from its start, and is not taken for an escaped one. -/
theorem find_plain {v : Text} (h : row[k]? = some (some v)) (hv : Plain (fieldText v)) :
    findFrom (line t row) '\'' (before t row k).length =
        some ((before t row k).length + (fieldText v).length) ∧
      (line t row)[(before t row k).length + (fieldText v).length - 1]? ≠ some '\\' := by
  rw [line_eq h, after_eq]
  obtain ⟨u, hu⟩ := before_quote t row k
  refine ⟨findFrom_append hv.1, ?_⟩
  rw [hu, ne_eq, getElem?_last]
  exact hv.2

theorem findnth_one {v : Text} (h : row[0]? = some (some v)) (hv : Plain (fieldText v)) :
    findnth 1 (line t row) 1 =
      some (some ((before t row 0).length, (before t row 0).length + (fieldText v).length)) := by
  obtain ⟨hfind, hesc⟩ := find_plain (t := t) h hv
  have hsub : findSub (line t row) "VALUES ('".toList = some (opening t).length := by
    have hparen : '(' ∉ opening t := by cases t <;> decide
    rw [line_eq h, before_zero, append_assoc]
    exact findSub_append hparen (by decide : '(' ∉ "VALUES ".toList)
  have hlen : ((opening t).length + 9) % 2 ^ 64 = (before t row 0).length ∧
      (before t row 0).length ≠ npos := by
    rw [before_zero]
    cases t <;> decide
  unfold findnth
  simp only [hsub, Option.getD_some, hlen.1, if_neg hlen.2, findFirst, hfind, if_neg hesc]
  rfl

theorem findnth_plain (h : ∀ j ≤ k, ∃ v, row[j]? = some (some v) ∧ Plain (fieldText v)) {v : Text}
    (hv : row[k]? = some (some v)) : findnth 1 (line t row) (k + 1) =
      some (some ((before t row k).length, (before t row k).length + (fieldText v).length)) := by
  induction k generalizing v with
  | zero =>
    obtain ⟨v', hv', hplain⟩ := h 0 (Nat.le_refl 0)
    cases (hv.symm.trans hv')
    exact findnth_one hv hplain
  | succ k ih =>
    obtain ⟨u, hu, -⟩ := h k (Nat.le_succ k)
    obtain ⟨v', hv', hplain⟩ := h (k + 1) (Nat.le_refl _)
    cases (hv.symm.trans hv')
    obtain ⟨hfind, hesc⟩ := find_plain (t := t) hv hplain
    have hstart : (before t row k).length + (fieldText u).length + 4 = (before t row (k + 1)).length := by
      rw [before_some hu]
      simp
      omega
    rw [findnth_succ (Nat.succ_pos k), ih (fun j hj => h j (Nat.le_succ_of_le hj)) hu]
    simp only [Option.bind_some, Option.elim_some, findNext, hstart, hfind, if_neg hesc]

/-! ## Substitution -/

/-- What `getnth` and `changenth` do with a field: the text as it is written, and only the text -/
def Substituted (t : DumpTable) (row : List (Option Text)) (n : Nat) (v : Text) : Prop :=
  ∃ fuel, getnth fuel (line t row) n = some (fieldText v) ∧ ∀ w, '\'' ∉ w →
    changenth fuel (line t row) n w false false =
      some (true, before t row (n - 1) ++ w ++ after row (n - 1))

theorem substituted_of_findnth {v : Text} (hv : row[k]? = some (some v))
    (h : findnth fuel (line t row) (k + 1) =
      some (some ((before t row k).length, (before t row k).length + (fieldText v).length))) :
    Substituted t row (k + 1) v := by
  refine ⟨fuel, ?_, fun w _ => ?_⟩
  · unfold getnth
    rw [h, line_eq hv]
    simp
  · unfold changenth
    rw [h, line_eq hv]
    simp [drop_append]

theorem exists_char (a b : Option Char) : ∃ c, '\'' ≠ c ∧ a ≠ some c ∧ b ≠ some c := by
  by_cases h0 : a ≠ some '0' ∧ b ≠ some '0'
  · exact ⟨'0', by decide, h0⟩
  · by_cases h1 : a ≠ some '1' ∧ b ≠ some '1'
    · exact ⟨'1', by decide, h1⟩
    · refine ⟨'2', by decide, ?_⟩
      grind

/-- What is put in the place of a part tells where the part is. -/
theorem positions_eq {pre text post : Text} (hse : s ≤ e) (he : e ≤ (pre ++ text ++ post).length)
    (h : ∀ w, '\'' ∉ w →
      (pre ++ text ++ post).take s ++ w ++ (pre ++ text ++ post).drop e = pre ++ w ++ post) :
    s = pre.length ∧ e = pre.length + text.length := by
  set str := pre ++ text ++ post with hstr
  have hs : (str.take s).length = s := by
    rw [length_take]
    omega
  obtain ⟨c, hquote, hcs, hcp⟩ := exists_char str[s]? str[pre.length]?
  have hone := h [c] (by simpa using hquote)
  have hspre : s = pre.length := by
    rcases Nat.lt_trichotomy s pre.length with hlt | heq | hgt
    · have hat := congrArg (·[s]?) hone
      simp only [append_assoc] at hat
      rw [getElem?_append_right (by omega), hs, Nat.sub_self, getElem?_append_left hlt] at hat
      have hpre : str[s]? = pre[s]? := by
        rw [hstr, append_assoc, getElem?_append_left hlt]
      exact absurd (hpre.trans hat.symm) (by simpa using hcs)
    · exact heq
    · have hat := congrArg (·[pre.length]?) hone
      simp only [append_assoc] at hat
      rw [getElem?_append_left (by omega), getElem?_append_right (Nat.le_refl _),
        Nat.sub_self, getElem?_take_of_lt hgt] at hat
      exact absurd hat (by simpa using hcp)
  refine ⟨hspre, ?_⟩
  have hstrlen : str.length = pre.length + text.length + post.length := by
    rw [hstr, length_append, length_append]
  have hlen := congrArg length (h [] (by simp))
  rw [append_nil, append_nil, length_append, length_append, hs,
    length_drop] at hlen
  omega

/-- The positions that `findnth` has found for a field that is substituted -/
theorem findnth_of_substituted {v : Text} (hv : row[k]? = some (some v))
    (h : Substituted t row (k + 1) v) : ∃ fuel, findnth fuel (line t row) (k + 1) =
      some (some ((before t row k).length, (before t row k).length + (fieldText v).length)) := by
  obtain ⟨fuel, -, hchange⟩ := h
  refine ⟨fuel, ?_⟩
  cases hfind : findnth fuel (line t row) (k + 1) with
  | none =>
    have hno := hchange [] (by simp)
    simp [changenth, hfind] at hno
  | some r =>
    cases r with
    | none =>
      have hno := hchange [] (by simp)
      simp [changenth, hfind] at hno
    | some q =>
      have hline := line_eq (t := t) hv
      obtain ⟨hfound, -, -⟩ := findnth_inv (Nat.succ_pos k) hfind
      have hparts := positions_eq (findFrom_eq_some.1 hfound).1 (hline ▸ (findFrom_lt hfound).le)
        fun w hw => by
          have hw' := hchange w hw
          rw [changenth, hfind, hline] at hw'
          simpa using hw'
      have hq : q = ((before t row k).length, (before t row k).length + (fieldText v).length) :=
        Prod.ext hparts.1 hparts.2
      rw [hq]

/-- A field that is substituted is plain, and is behind another field that is not `NULL`. -/
theorem plain_of_substituted {v : Text} (hv : row[k]? = some (some v))
    (h : Substituted t row (k + 1) v) :
    (∀ j, j + 1 = k → row[j]? ≠ some none) ∧ Plain (fieldText v) := by
  obtain ⟨fuel, hfind⟩ := findnth_of_substituted hv h
  obtain ⟨hquote, hesc, hstart⟩ := findnth_inv (Nat.succ_pos k) hfind
  rw [line_eq hv] at hquote hesc hstart
  refine ⟨?_, not_mem_of_findFrom hquote, ?_⟩
  · rintro j rfl hnull
    obtain ⟨u, hu⟩ := before_none (t := t) hnull
    obtain ⟨-, hat⟩ := hstart (by omega)
    dsimp only at hat
    have hl : (before t row (j + 1) ++ fieldText v ++ after row (j + 1))[(before t row (j + 1)).length - 4]? =
        some 'L' := by
      rw [hu, append_assoc, append_assoc, getElem?_append_right (by simp)]
      simp
    rw [hl] at hat
    exact absurd hat (by decide)
  · obtain ⟨u, hu⟩ := before_quote t row k
    rw [hu] at hesc
    exact fun hlast => hesc ((getElem?_last u (fieldText v) (after row k)).2 hlast)

/-- Of the first `m` fields of a row, those that are not `NULL` are all substituted as they should be if
and only if none of them is behind a `NULL`, has a quote in its text or a backslash at the end. -/
theorem substituted_iff (t : DumpTable) (row : List (Option Text)) (m : Nat) :
    (∀ n v, 1 ≤ n → n ≤ m → row[n - 1]? = some (some v) → Substituted t row n v) ↔
      ∀ n v, 1 ≤ n → n ≤ m → row[n - 1]? = some (some v) →
        (∀ j < n - 1, row[j]? ≠ some none) ∧ Plain (getCppString v) := by
  constructor
  · intro h n
    -- the field before is not `NULL`, and what is before that one is known by induction
    induction n using Nat.strong_induction_on with
    | _ n ih =>
      intro v hn hm hv
      obtain ⟨k, rfl⟩ : ∃ k, n = k + 1 := ⟨n - 1, by omega⟩
      rw [Nat.add_sub_cancel] at hv ⊢
      obtain ⟨hprev, hplain⟩ := plain_of_substituted hv (h (k + 1) v hn hm hv)
      refine ⟨fun j hj hnull => ?_, (plain_escape _).1 hplain⟩
      rcases Nat.lt_or_ge (j + 1) k with hlt | hge
      · have hk : k - 1 < row.length := by
          have hlen := (List.getElem?_eq_some_iff.1 hv).1
          omega
        cases hval : row[k - 1]? with
        | none => exact absurd (getElem?_eq_none_iff.1 hval) (by omega)
        | some f =>
          cases f with
          | none => exact hprev (k - 1) (by omega) hval
          | some u => exact (ih k (by omega) u (by omega) (by omega) hval).1 j (by omega) hnull
      · exact hprev j (by omega) hnull
  · intro h n v hn hm hv
    obtain ⟨k, rfl⟩ : ∃ k, n = k + 1 := ⟨n - 1, by omega⟩
    have hnull := (h (k + 1) v hn hm hv).1
    rw [Nat.add_sub_cancel] at hv hnull
    refine substituted_of_findnth hv (findnth_plain (fun j hj => ?_) hv)
    have hlen := (List.getElem?_eq_some_iff.1 hv).1
    cases hval : row[j]? with
    | none => exact absurd (getElem?_eq_none_iff.1 hval) (by omega)
    | some f =>
      cases f with
      | none =>
        rcases Nat.lt_or_eq_of_le hj with hlt | rfl
        · exact absurd hval (hnull j hlt)
        · cases hv.symm.trans hval
      | some u => exact ⟨u, rfl, (plain_escape _).2 (h (j + 1) u (by omega) (by omega) hval).2⟩

/-- With a `NULL` before it, the second field is not the third. -/
theorem not_substituted : ¬ ∀ (t : DumpTable) (row : List (Option Text)) (n : Nat) (v : Text),
    1 ≤ n → row[n - 1]? = some (some v) → Substituted t row n v := by
  intro h
  have hnull := (plain_of_substituted (k := 1) rfl
    (h .mail [none, some "1".toList] 2 "1".toList (by decide) rfl)).1 0 rfl
  exact hnull rfl

end PlayerDump

end Windrunner
