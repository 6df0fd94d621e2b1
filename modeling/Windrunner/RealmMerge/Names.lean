import Windrunner.GuildBank.Text

/-!
# New names in a merged database

A character or guild of the second database whose name the first one has is renamed: a character
gets its guid as its name, a guild gets the next placeholder of the form `PH abcd`. Both steps go
through the rows of the second database in the order of their ids, with the set of the names of the
first one; a placeholder for a guild is put into that set.

* `NameTable`: a table before the merge, in which no name is used twice.
* `characterRenames`, `guildRenames`: the statements of the two steps.
* `Unique`: what the names are to be after a step.
* `names_unique_iff`: the steps do not look at the names of the second database, so they keep the
  names unique exactly when no placeholder is the name of somebody.
-/

namespace Windrunner

open List

namespace RealmMerge

/-- The ids and the names of the rows of a table. The ids are its primary key. -/
structure NameTable where
  rows : List (Nat × Text)
  nodup_ids : (rows.map Prod.fst).Nodup
  nodup_names : ((rows.map Prod.snd).filter (· ≠ [])).Nodup

def NameTable.names (t : NameTable) : List Text := t.rows.map Prod.snd

/-- `UPDATE .. SET name = .. WHERE id = ..` -/
structure SetName where
  id : Nat
  name : Text
  deriving DecidableEq, Repr

def SetName.row (u : SetName) (r : Nat × Text) : Nat × Text :=
  if r.1 = u.id then (r.1, u.name) else r

def SetName.exec (rows : List (Nat × Text)) (us : List SetName) : List (Nat × Text) :=
  us.foldl (fun rows u => rows.map u.row) rows

/-- The rows as a `std::map` holds them -/
def NameTable.byId (t : NameTable) : List (Nat × Text) :=
  t.rows.insertionSort fun r r' => r.1 ≤ r'.1

/-- The name of a row is taken. -/
def Clash (names : List Text) (r : Nat × Text) : Prop := r.2 ≠ [] ∧ r.2 ∈ names

instance (names : List Text) : DecidablePred (Clash names) := fun _ =>
  inferInstanceAs (Decidable (_ ∧ _))

/-! ## The name step of `UpdateCharacterGuids` -/

/-- A guid as MySQL writes it into a text column -/
def guidName (guid : Nat) : Text := Nat.toDigits 10 guid

def characterRenames (characterNames1 : List Text) (characterNames2 : List (Nat × Text)) :
    List SetName :=
  (characterNames2.filter (Clash characterNames1)).map fun r => ⟨r.1, guidName r.1⟩

/-! ## The name step of `UpdateGuildIds` -/

/-- `'a'` up to `'y'`: the loops end before `'z'`. -/
def letters : List Char := (range 25).map fun i => Char.ofNat (97 + i)

/-- The names that the four loops of `GenerateGuildName` try -/
def placeholders : List Text :=
  (letters ×ˢ letters ×ˢ letters ×ˢ letters).map fun (chr1, chr2, chr3, chr4) =>
    ['P', 'H', ' ', chr1, chr2, chr3, chr4]

def duplicate : Text := ['D', 'U', 'P', 'L', 'I', 'C', 'A', 'T', 'E']

local instance : LawfulBEq Text := inferInstanceAs (LawfulBEq (List Char))

/-- `GenerateGuildName`, and `guildNames1` after it -/
def generateGuildName (guildNames1 : List Text) : Text × List Text :=
  match placeholders.find? (· ∉ guildNames1) with
  | some name2 => (name2, name2 :: guildNames1)
  | none => (duplicate, guildNames1)

def guildRenames : List Text → List (Nat × Text) → List SetName
  | _, [] => []
  | guildNames1, r :: guildNames2 =>
    if Clash guildNames1 r then
      ⟨r.1, (generateGuildName guildNames1).1⟩ ::
        guildRenames (generateGuildName guildNames1).2 guildNames2
    else guildRenames guildNames1 guildNames2

/-! ## Unique names -/

/-- After the statements no name is used twice in both databases, and the names of the second that
did not clash are as they were. -/
structure Unique (t1 t2 : NameTable) (us : List SetName) : Prop where
  distinct : ((t1.names ++ (SetName.exec t2.rows us).map Prod.snd).filter (· ≠ [])).Nodup
  kept : ∀ r ∈ t2.rows, ¬ Clash t1.names r → r ∈ SetName.exec t2.rows us

/-- The placeholders `new` are distinct, and nobody has one of them who keeps his name. -/
structure Spare (t1 t2 : NameTable) (new : List Text) : Prop where
  nodup : new.Nodup
  first : ∀ name ∈ new, name ∉ t1.names
  second : ∀ name ∈ new, ∀ r ∈ t2.rows, ¬ Clash t1.names r → r.2 ≠ name

/-! ## What the statements do -/

/-- The name that the statements give to the row `id` -/
def newName (us : List SetName) (id : Nat) : Option Text :=
  (us.find? fun u => u.id = id).map SetName.name

theorem newName_cons (u : SetName) (us : List SetName) (id : Nat) :
    newName (u :: us) id = if u.id = id then some u.name else newName us id := by
  unfold newName
  by_cases h : u.id = id <;> simp [h]

theorem newName_of_mem {us : List SetName} (h : (us.map SetName.id).Nodup) {u : SetName}
    (hu : u ∈ us) : newName us u.id = some u.name := by
  induction us with
  | nil => cases hu
  | cons u' us ih =>
    rw [map_cons, nodup_cons] at h
    rw [newName_cons]
    rcases mem_cons.1 hu with rfl | hu
    · rw [if_pos rfl]
    · have hne : u'.id ≠ u.id := fun heq => h.1 (heq ▸ mem_map_of_mem hu)
      rw [if_neg hne, ih h.2 hu]

theorem newName_of_not_mem {us : List SetName} {id : Nat} (h : id ∉ us.map SetName.id) :
    newName us id = none := by
  unfold newName
  rw [find?_eq_none.2, Option.map_none]
  intro u hu heq
  exact h (mem_map.2 ⟨u, hu, by simpa using heq⟩)

theorem exec_eq {us : List SetName} (h : (us.map SetName.id).Nodup) (rows : List (Nat × Text)) :
    SetName.exec rows us = rows.map fun r => (r.1, (newName us r.1).getD r.2) := by
  unfold SetName.exec
  induction us generalizing rows with
  | nil => simp [newName]
  | cons u us ih =>
    rw [map_cons, nodup_cons] at h
    rw [foldl_cons, ih h.2, map_map]
    apply map_congr_left
    rintro ⟨id, name⟩ -
    by_cases hid : id = u.id
    · subst hid
      simp [SetName.row, newName_of_not_mem h.1, newName_cons]
    · simp [SetName.row, hid, newName_cons, Ne.symm hid]

theorem byId_perm (t : NameTable) : t.byId.Perm t.rows := perm_insertionSort _ _

theorem byId_nodup_ids (t : NameTable) : (t.byId.map Prod.fst).Nodup :=
  ((byId_perm t).map _).nodup_iff.2 t.nodup_ids

theorem NameTable.eq_of_id (t : NameTable) {r r' : Nat × Text} (hr : r ∈ t.rows) (hr' : r' ∈ t.rows)
    (h : r.1 = r'.1) : r = r' := inj_on_of_nodup_map t.nodup_ids hr hr' h

/-! ## A step that renames those that clash -/

section Renames

variable {t1 t2 : NameTable} {us : List SetName}

/-- The rows that clash, in the order of their ids -/
def clashing (t1 t2 : NameTable) : List (Nat × Text) := t2.byId.filter (Clash t1.names)

/-- The rows that do not -/
def keeping (t1 t2 : NameTable) : List (Nat × Text) := t2.rows.filter (¬ Clash t1.names ·)

theorem mem_clashing {r : Nat × Text} :
    r ∈ clashing t1 t2 ↔ r ∈ t2.rows ∧ Clash t1.names r := by
  rw [clashing, mem_filter, (byId_perm t2).mem_iff, decide_eq_true_iff]

theorem nodup_clashing (t1 t2 : NameTable) : ((clashing t1 t2).map Prod.fst).Nodup :=
  (byId_nodup_ids t2).sublist (filter_sublist.map _)

section

variable (hids : us.map SetName.id = (clashing t1 t2).map Prod.fst)
include hids

theorem newName_clashing :
    (clashing t1 t2).map (fun r => (newName us r.1).getD r.2) = us.map SetName.name := by
  have hnodup : (us.map SetName.id).Nodup := hids ▸ nodup_clashing t1 t2
  calc
    (clashing t1 t2).map (fun r => (newName us r.1).getD r.2)
      = (clashing t1 t2).map (fun r => (newName us r.1).getD []) := by
        apply map_congr_left
        intro r hr
        have hmem : r.1 ∈ us.map SetName.id := hids ▸ mem_map_of_mem hr
        obtain ⟨u, hu, hid⟩ := mem_map.1 hmem
        rw [← hid, newName_of_mem hnodup hu, Option.getD_some, Option.getD_some]
    _ = (us.map SetName.id).map (fun id => (newName us id).getD []) := by
        rw [hids, map_map]
        rfl
    _ = us.map SetName.name := by
        rw [map_map]
        apply map_congr_left
        intro u hu
        simp [newName_of_mem hnodup hu]

theorem newName_keeping
    {r : Nat × Text} (hr : r ∈ t2.rows) (hc : ¬ Clash t1.names r) : newName us r.1 = none := by
  apply newName_of_not_mem
  rw [hids]
  intro hmem
  obtain ⟨r', hr', hid⟩ := mem_map.1 hmem
  obtain ⟨hr', hc'⟩ := mem_clashing.1 hr'
  rw [t2.eq_of_id hr' hr hid] at hc'
  exact hc hc'

/-- The names after a step that renames those that clash, and no others. -/
theorem names_exec :
    ((SetName.exec t2.rows us).map Prod.snd).Perm
      ((keeping t1 t2).map Prod.snd ++ us.map SetName.name) := by
  have hnodup : (us.map SetName.id).Nodup := hids ▸ nodup_clashing t1 t2
  have hsplit : t2.rows.Perm (keeping t1 t2 ++ clashing t1 t2) := by
    have hc : (clashing t1 t2).Perm (t2.rows.filter (Clash t1.names)) := (byId_perm t2).filter _
    refine .trans ?_ (hc.symm.append_left _)
    simpa [keeping] using ((t2.rows.filter_append_perm (Clash t1.names)).symm.trans
      perm_append_comm)
  rw [exec_eq hnodup, map_map, ← newName_clashing hids]
  refine (hsplit.map _).trans ?_
  rw [map_append]
  refine .of_eq (congrArg₂ _ (map_congr_left fun r hr => ?_) rfl)
  obtain ⟨hr, hc⟩ := mem_filter.1 hr
  simp [newName_keeping hids hr (by simpa using hc)]

theorem kept_of_ids {r : Nat × Text} (hr : r ∈ t2.rows) (hc : ¬ Clash t1.names r) :
    r ∈ SetName.exec t2.rows us := by
  have hnodup : (us.map SetName.id).Nodup := hids ▸ nodup_clashing t1 t2
  rw [exec_eq hnodup]
  exact mem_map.2 ⟨r, hr, by rw [newName_keeping hids hr hc, Option.getD_none]⟩

end

/-- The names of the two databases that stay as they are. -/
theorem nodup_staying (t1 t2 : NameTable) :
    ((t1.names ++ (keeping t1 t2).map Prod.snd).filter (· ≠ [])).Nodup := by
  rw [filter_append, nodup_append']
  refine ⟨t1.nodup_names, ?_, fun name h1 h2 => ?_⟩
  · exact t2.nodup_names.sublist ((filter_sublist.map _).filter _)
  · obtain ⟨h1, hne⟩ := mem_filter.1 h1
    obtain ⟨r, hr, rfl⟩ := mem_map.1 (mem_filter.1 h2).1
    have hc : ¬ Clash t1.names r := by simpa using (mem_filter.1 hr).2
    exact hc ⟨by simpa using hne, h1⟩

theorem unique_iff_spare (hids : us.map SetName.id = (clashing t1 t2).map Prod.fst)
    (hne : ∀ name ∈ us.map SetName.name, name ≠ []) :
    Unique t1 t2 us ↔ Spare t1 t2 (us.map SetName.name) := by
  have hdistinct : ((t1.names ++ (SetName.exec t2.rows us).map Prod.snd).filter (· ≠ [])).Nodup ↔
      ((t1.names ++ (keeping t1 t2).map Prod.snd).filter (· ≠ []) ++ us.map SetName.name).Nodup := by
    have hnew : us.map SetName.name = (us.map SetName.name).filter (· ≠ []) :=
      (filter_eq_self.2 fun name hname => by simpa using hne name hname).symm
    have hperm := (((names_exec hids).append_left t1.names).filter (· ≠ [])).nodup_iff
    rw [hperm, ← append_assoc, filter_append, ← hnew]
  constructor
  · intro h
    obtain ⟨-, hnodup, hdisj⟩ := nodup_append'.1 (hdistinct.1 h.distinct)
    refine ⟨hnodup, fun name hname h1 => ?_, fun name hname r hr hc heq => ?_⟩
    · exact hdisj (mem_filter.2 ⟨mem_append_left _ h1, by simpa using hne name hname⟩)
        hname
    · have hr' : r ∈ keeping t1 t2 := mem_filter.2 ⟨hr, by simpa using hc⟩
      exact hdisj (mem_filter.2 ⟨mem_append_right _ (heq ▸ mem_map_of_mem hr'),
        by simpa using hne name hname⟩) hname
  · intro h
    refine ⟨hdistinct.2 (nodup_append'.2 ⟨nodup_staying t1 t2, h.nodup, ?_⟩),
      fun r hr hc => kept_of_ids hids hr hc⟩
    intro name hname hnew
    rcases mem_append.1 (mem_filter.1 hname).1 with h1 | h2
    · exact h.first name hnew h1
    · obtain ⟨r, hr, rfl⟩ := mem_map.1 h2
      obtain ⟨hr, hc⟩ := mem_filter.1 hr
      exact h.second r.2 hnew r hr (by simpa using hc) rfl

end Renames

/-! ## Characters -/

theorem guidName_ne_nil (guid : Nat) : guidName guid ≠ [] := Nat.toDigits_ne_nil

/-- The names that the characters get who clash -/
def guidNames (t1 t2 : NameTable) : List Text := (clashing t1 t2).map fun r => guidName r.1

theorem character_unique_iff (t1 t2 : NameTable) :
    Unique t1 t2 (characterRenames t1.names t2.byId) ↔ Spare t1 t2 (guidNames t1 t2) := by
  have hids : (characterRenames t1.names t2.byId).map SetName.id =
      (clashing t1 t2).map Prod.fst := by
    unfold characterRenames clashing
    rw [map_map]
    rfl
  have hnames : (characterRenames t1.names t2.byId).map SetName.name = guidNames t1 t2 := by
    unfold characterRenames guidNames clashing
    rw [map_map]
    rfl
  rw [unique_iff_spare hids, hnames]
  rw [hnames]
  intro name hname
  obtain ⟨r, -, rfl⟩ := mem_map.1 hname
  exact guidName_ne_nil r.1

/-! ## Guilds -/

theorem nodup_placeholders : placeholders.Nodup := by
  have hletters : letters.Nodup := by decide
  refine List.Nodup.map ?_ (hletters.product (hletters.product (hletters.product hletters)))
  rintro ⟨a, b, c, d⟩ ⟨a', b', c', d'⟩ h
  simpa using h

theorem ne_nil_of_mem_placeholders {name : Text} (h : name ∈ placeholders) : name ≠ [] := by
  obtain ⟨⟨a, b, c, d⟩, -, rfl⟩ := mem_map.1 h
  simp

theorem duplicate_not_mem_placeholders : duplicate ∉ placeholders := by
  intro h
  obtain ⟨⟨a, b, c, d⟩, -, heq⟩ := mem_map.1 h
  simp [duplicate] at heq

/-- The placeholders that the first database leaves, in the order in which they are given out -/
def spares (guildNames1 : List Text) : List Text := placeholders.filter (· ∉ guildNames1)

/-- The `i`-th name that is given out -/
def nthName (guildNames1 : List Text) (i : Nat) : Text := (spares guildNames1).getD i duplicate

/-- The set of names after `k` of them have been given out -/
def Given (guildNames1 : List Text) (k : Nat) (taken : List Text) : Prop :=
  ∀ name, name ∈ taken ↔ name ∈ guildNames1 ∨ name ∈ (spares guildNames1).take k

theorem Given.zero (guildNames1 : List Text) : Given guildNames1 0 guildNames1 := by
  simp [Given]

theorem filter_not_mem_take {l : List Text} (h : l.Nodup) (k : Nat) :
    l.filter (· ∉ l.take k) = l.drop k := by
  have htake : (l.take k).filter (· ∉ l.take k) = [] := by simp [filter_eq_nil_iff]
  have hdrop : (l.drop k).filter (· ∉ l.take k) = l.drop k := by
    refine filter_eq_self.2 fun name hname => ?_
    simpa using fun hmem => disjoint_take_drop h le_rfl hmem hname
  calc
    l.filter (· ∉ l.take k) = (l.take k ++ l.drop k).filter (· ∉ l.take k) := by
      rw [take_append_drop]
    _ = l.drop k := by rw [filter_append, htake, hdrop, nil_append]

variable {taken guildNames1 : List Text}

theorem Given.find? {k : Nat} (h : Given guildNames1 k taken) :
    placeholders.find? (· ∉ taken) = (spares guildNames1)[k]? := by
  have hdrop : placeholders.filter (· ∉ taken) = (spares guildNames1).drop k := by
    have hsplit : placeholders.filter (· ∉ taken) =
        (spares guildNames1).filter (· ∉ (spares guildNames1).take k) := by
      rw [spares, filter_filter]
      apply filter_congr
      intro name _
      simp [h name, spares, Bool.and_comm]
    have hnodup : (spares guildNames1).Nodup := nodup_placeholders.filter _
    rw [hsplit, filter_not_mem_take hnodup]
  rw [← head?_filter, hdrop, head?_drop]

theorem Given.generate {k : Nat} (h : Given guildNames1 k taken) :
    (generateGuildName taken).1 = nthName guildNames1 k ∧
      Given guildNames1 (k + 1) (generateGuildName taken).2 := by
  unfold generateGuildName nthName
  rw [h.find?, getD_eq_getElem?_getD]
  cases hk : (spares guildNames1)[k]? with
  | none =>
    refine ⟨rfl, fun name => ?_⟩
    have hlen : (spares guildNames1).length ≤ k := getElem?_eq_none_iff.1 hk
    rw [h name, take_of_length_le hlen, take_of_length_le (by omega)]
  | some new =>
    refine ⟨rfl, fun name => ?_⟩
    have htake : (spares guildNames1).take (k + 1) = (spares guildNames1).take k ++ [new] := by
      rw [take_add_one, hk, Option.toList_some]
    rw [htake, mem_cons, h name, mem_append, mem_singleton]
    tauto

/-- The names that the guilds get who clash, the first `k` having been given out -/
def guildNamesFrom (guildNames1 : List Text) (k n : Nat) : List Text :=
  (range' k n).map (nthName guildNames1)

/-- The statements rename the guilds that clash, in order and each to the next name. -/
def InOrder (guildNames1 : List Text) (k : Nat) (rows : List (Nat × Text)) (us : List SetName) :
    Prop :=
  us.map SetName.id = (rows.filter (Clash guildNames1)).map Prod.fst ∧
    us.map SetName.name = guildNamesFrom guildNames1 k (rows.filter (Clash guildNames1)).length

theorem InOrder.clash {k : Nat} {r : Nat × Text}
    {rows : List (Nat × Text)} (h : Given guildNames1 k taken) (hc : Clash guildNames1 r)
    (htail : InOrder guildNames1 (k + 1) rows (guildRenames (generateGuildName taken).2 rows)) :
    InOrder guildNames1 k (r :: rows) (guildRenames taken (r :: rows)) := by
  have hc' : Clash taken r := ⟨hc.1, (h r.2).2 (.inl hc.2)⟩
  obtain ⟨hids, hnames⟩ := htail
  unfold guildRenames InOrder
  rw [if_pos hc', filter_cons_of_pos (by simpa using hc), map_cons, map_cons,
    map_cons, hids, hnames, h.generate.1]
  exact ⟨rfl, rfl⟩

theorem InOrder.keep {k : Nat} {r : Nat × Text}
    {rows : List (Nat × Text)} (hc : ¬ Clash guildNames1 r) (hc' : ¬ Clash taken r)
    (htail : InOrder guildNames1 k rows (guildRenames taken rows)) :
    InOrder guildNames1 k (r :: rows) (guildRenames taken (r :: rows)) := by
  unfold guildRenames InOrder
  rw [if_neg hc', filter_cons_of_neg (by simpa using hc)]
  exact htail

/-- They do when no guild that does not clash has one of the names. -/
theorem inOrder_of_spare {k : Nat} (h : Given guildNames1 k taken) (rows : List (Nat × Text))
    (hspare : ∀ r ∈ rows, ¬ Clash guildNames1 r →
      r.2 ∉ (spares guildNames1).take (k + (rows.filter (Clash guildNames1)).length)) :
    InOrder guildNames1 k rows (guildRenames taken rows) := by
  induction rows generalizing taken k with
  | nil => exact ⟨rfl, rfl⟩
  | cons r rows ih =>
    by_cases hc : Clash guildNames1 r
    · rw [filter_cons_of_pos (by simpa using hc)] at hspare
      refine .clash h hc (ih h.generate.2 fun r' hr' hr'c => ?_)
      have := hspare r' (mem_cons_of_mem _ hr') hr'c
      rwa [length_cons, Nat.add_comm _ 1, ← Nat.add_assoc] at this
    · rw [filter_cons_of_neg (by simpa using hc)] at hspare
      refine .keep hc ?_ (ih h fun r' hr' => hspare r' (mem_cons_of_mem _ hr'))
      rintro ⟨hne, hmem⟩
      rcases (h r.2).1 hmem with h1 | h2
      · exact hc ⟨hne, h1⟩
      · exact hspare r mem_cons_self hc
          (take_subset_take_left _ (Nat.le_add_right _ _) h2)

/-- They do when no guild that does not clash is renamed. -/
theorem inOrder_of_ids {k : Nat} (h : Given guildNames1 k taken) (rows : List (Nat × Text))
    (hids : ∀ r ∈ rows, ¬ Clash guildNames1 r → r.1 ∉ (guildRenames taken rows).map SetName.id) :
    InOrder guildNames1 k rows (guildRenames taken rows) := by
  induction rows generalizing taken k with
  | nil => exact ⟨rfl, rfl⟩
  | cons r rows ih =>
    by_cases hc : Clash guildNames1 r
    · have hc' : Clash taken r := ⟨hc.1, (h r.2).2 (.inl hc.2)⟩
      rw [guildRenames, if_pos hc'] at hids
      exact .clash h hc (ih h.generate.2 fun r' hr' hr'c hmem =>
        hids r' (mem_cons_of_mem _ hr') hr'c (mem_cons_of_mem _ hmem))
    · have hc' : ¬ Clash taken r := by
        intro hc'
        rw [guildRenames, if_pos hc'] at hids
        exact hids r mem_cons_self hc mem_cons_self
      rw [guildRenames, if_neg hc'] at hids
      exact .keep hc hc' (ih h fun r' hr' => hids r' (mem_cons_of_mem _ hr'))

theorem generateGuildName_ne {name : Text} (h : name ∈ taken)
    (hp : name ∈ placeholders) : name ≠ (generateGuildName taken).1 := by
  unfold generateGuildName
  split
  next name2 hfind =>
    rintro rfl
    exact absurd h (by simpa using find?_some hfind)
  next =>
    rintro rfl
    exact duplicate_not_mem_placeholders hp

/-- A guild that is renamed gets another name than it has, or it clashes. -/
theorem renamed_of_mem {k : Nat} (h : Given guildNames1 k taken)
    {rows : List (Nat × Text)} {u : SetName} (hu : u ∈ guildRenames taken rows) :
    ∃ r ∈ rows, r.1 = u.id ∧ (Clash guildNames1 r ∨ r.2 ≠ u.name) := by
  induction rows generalizing taken k with
  | nil => cases hu
  | cons r rows ih =>
    unfold guildRenames at hu
    split at hu
    next hc' =>
      rcases mem_cons.1 hu with rfl | hu
      · refine ⟨r, mem_cons_self, rfl, ?_⟩
        rcases (h r.2).1 hc'.2 with h1 | h2
        · exact .inl ⟨hc'.1, h1⟩
        · -- its name is one that has been given out, so it is not given out again
          have hp : r.2 ∈ placeholders := (mem_filter.1 (mem_of_mem_take h2)).1
          exact .inr (generateGuildName_ne hc'.2 hp)
      · obtain ⟨r', hr', hr⟩ := ih h.generate.2 hu
        exact ⟨r', mem_cons_of_mem _ hr', hr⟩
    next =>
      obtain ⟨r', hr', hr⟩ := ih h hu
      exact ⟨r', mem_cons_of_mem _ hr', hr⟩

theorem guildRenames_sublist (taken : List Text) (rows : List (Nat × Text)) :
    ((guildRenames taken rows).map SetName.id).Sublist (rows.map Prod.fst) := by
  induction rows generalizing taken with
  | nil => exact .slnil
  | cons r rows ih =>
    unfold guildRenames
    split
    next => exact (ih _).cons_cons _
    next => exact (ih _).cons _

/-- The names that the guilds get who clash -/
def guildNames (t1 t2 : NameTable) : List Text :=
  guildNamesFrom t1.names 0 (clashing t1 t2).length

theorem ne_nil_of_mem_guildNames {t1 t2 : NameTable} {name : Text} (h : name ∈ guildNames t1 t2) :
    name ≠ [] := by
  obtain ⟨i, -, rfl⟩ := mem_map.1 h
  unfold nthName
  rw [getD_eq_getElem?_getD]
  cases hi : (spares t1.names)[i]? with
  | none => simp [duplicate]
  | some name =>
    exact ne_nil_of_mem_placeholders (mem_filter.1 (mem_of_getElem? hi)).1

theorem mem_guildNames {t1 t2 : NameTable} {name : Text}
    (h : name ∈ (spares t1.names).take (clashing t1 t2).length) : name ∈ guildNames t1 t2 := by
  obtain ⟨i, hi, rfl⟩ := mem_iff_getElem.1 h
  rw [length_take] at hi
  refine mem_map.2 ⟨i, mem_range'_1.2 (by omega), ?_⟩
  rw [nthName, getElem_take, getD_eq_getElem?_getD, getElem?_eq_getElem (by omega),
    Option.getD_some]

/-- A guild that keeps its name is in no statement. -/
theorem not_mem_of_kept {t1 t2 : NameTable} {r : Nat × Text} (hr : r ∈ t2.rows)
    (hc : ¬ Clash t1.names r) (hkept : r ∈ SetName.exec t2.rows (guildRenames t1.names t2.byId)) :
    r.1 ∉ (guildRenames t1.names t2.byId).map SetName.id := by
  intro hmem
  obtain ⟨u, hu, hid⟩ := mem_map.1 hmem
  have hnodup := (byId_nodup_ids t2).sublist (guildRenames_sublist t1.names t2.byId)
  obtain ⟨r', hr', hid', hname⟩ := renamed_of_mem (.zero _) hu
  have heq : r' = r := t2.eq_of_id ((byId_perm t2).mem_iff.1 hr') hr (hid'.trans hid)
  rw [heq] at hname
  rw [exec_eq hnodup] at hkept
  obtain ⟨r'', -, heq'⟩ := mem_map.1 hkept
  have h1 : r''.1 = u.id := (congrArg Prod.fst heq').trans hid.symm
  have h2 : r.2 = u.name := by rw [← congrArg Prod.snd heq', h1, newName_of_mem hnodup hu]; rfl
  exact hname.elim hc fun h => h h2

theorem guild_unique_iff (t1 t2 : NameTable) :
    Unique t1 t2 (guildRenames t1.names t2.byId) ↔ Spare t1 t2 (guildNames t1 t2) := by
  have hiff : InOrder t1.names 0 t2.byId (guildRenames t1.names t2.byId) →
      (Unique t1 t2 (guildRenames t1.names t2.byId) ↔ Spare t1 t2 (guildNames t1 t2)) := by
    rintro ⟨hids, hnames⟩
    rw [unique_iff_spare hids, hnames]
    · rfl
    · rw [hnames]
      intro name hname
      exact @ne_nil_of_mem_guildNames t1 t2 name hname
  constructor
  · intro h
    refine (hiff (inOrder_of_ids (.zero _) _ fun r hr hc => ?_)).1 h
    have hr' := (byId_perm t2).mem_iff.1 hr
    exact not_mem_of_kept hr' hc (h.kept r hr' hc)
  · intro h
    refine (hiff (inOrder_of_spare (.zero _) _ fun r hr hc hmem => ?_)).2 h
    rw [Nat.zero_add] at hmem
    exact h.second r.2 (mem_guildNames hmem) r ((byId_perm t2).mem_iff.1 hr) hc rfl

/-! ## Both steps -/

/-- The names of the characters and of the guilds are unique after the two steps, and those that did
not clash are unchanged, exactly when nobody else has one of the names that the steps give. The
guids are distinct; the placeholders for guilds are, while there are enough of them. -/
theorem names_unique_iff (characters1 characters2 guilds1 guilds2 : NameTable) :
    (Unique characters1 characters2 (characterRenames characters1.names characters2.byId) ∧
      Unique guilds1 guilds2 (guildRenames guilds1.names guilds2.byId)) ↔
    (Spare characters1 characters2 (guidNames characters1 characters2) ∧
      Spare guilds1 guilds2 (guildNames guilds1 guilds2)) :=
  and_congr (character_unique_iff _ _) (guild_unique_iff _ _)

/-- The character 5 gets the name that an earlier merge gave to the character 7. -/
theorem names_not_unique : ¬ ∀ characters1 characters2 guilds1 guilds2 : NameTable,
    Unique characters1 characters2 (characterRenames characters1.names characters2.byId) ∧
      Unique guilds1 guilds2 (guildRenames guilds1.names guilds2.byId) := by
  intro h
  have hdistinct := (h ⟨[(1, ['T', 'h', 'r', 'a'])], by decide, by decide⟩
    ⟨[(5, ['T', 'h', 'r', 'a']), (7, ['5'])], by decide, by decide⟩
    ⟨[], by decide, by decide⟩ ⟨[], by decide, by decide⟩).1.distinct
  revert hdistinct
  decide

end RealmMerge

end Windrunner
