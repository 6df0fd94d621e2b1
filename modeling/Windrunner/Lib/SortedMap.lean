import Mathlib.Order.Lattice

/-!
# Maps in the order of their keys

A `SortedMap` is the list of its entries by increasing key, so that what iterates over the map has
an order. `find`, `insert`, `erase`, `filter` and `mapVal` are its operations; `find_insert`,
`find_erase`, `find_filter` and `find_mapVal` say what each does to a lookup, and
`mem_entries_iff` that the entries are what `find` gives. `entries_insert` says what a new key does to
the entries, and `find_foldl` is the rule for a loop that writes every key at most once.
-/

namespace Windrunner.Lib

open List Option

/-- A map as the list of its entries, by increasing key. -/
structure SortedMap (α β : Type) [LT α] where
  entries : List (α × β) := []
  sorted : entries.Pairwise (·.1 < ·.1) := by exact List.Pairwise.nil
  deriving DecidableEq

namespace SortedMap

variable {α β γ : Type} [LinearOrder α] {m : SortedMap α β} {a c : α} {b : β}

/-- The entry of a new key is put where it belongs, and the one of the same key replaced. -/
def insertEntry (a : α) (b : β) : List (α × β) → List (α × β)
  | [] => [(a, b)]
  | x :: l =>
    if a < x.1 then (a, b) :: x :: l
    else if a = x.1 then (a, b) :: l
    else x :: insertEntry a b l

theorem mem_insertEntry {x : α × β} {l : List (α × β)} (h : x ∈ insertEntry a b l) :
    x = (a, b) ∨ x ∈ l := by
  induction l with
  | nil => exact .inl (mem_singleton.mp h)
  | cons y l ih =>
    unfold insertEntry at h
    split_ifs at h
    · exact (mem_cons.mp h)
    · exact (mem_cons.mp h).imp_right (mem_cons_of_mem y)
    · rcases mem_cons.mp h with rfl | h
      · exact .inr mem_cons_self
      · exact (ih h).imp_right (mem_cons_of_mem y)

theorem insertEntry_sorted {l : List (α × β)} (h : l.Pairwise (·.1 < ·.1)) :
    (insertEntry a b l).Pairwise (·.1 < ·.1) := by
  induction l with
  | nil => exact pairwise_singleton _ _
  | cons y l ih =>
    obtain ⟨hy, hl⟩ := pairwise_cons.mp h
    unfold insertEntry
    split_ifs with h1 h2
    · refine pairwise_cons.mpr ⟨fun x hx => ?_, h⟩
      rcases mem_cons.mp hx with rfl | hx
      · exact h1
      · exact lt_trans h1 (hy x hx)
    · refine pairwise_cons.mpr ⟨fun x hx => ?_, hl⟩
      rw [h2]
      exact hy x hx
    · refine pairwise_cons.mpr ⟨fun x hx => ?_, ih hl⟩
      rcases mem_insertEntry hx with rfl | hx
      · exact lt_of_le_of_ne (not_lt.mp h1) (Ne.symm h2)
      · exact hy x hx

instance : EmptyCollection (SortedMap α β) := ⟨⟨[], .nil⟩⟩

instance : Inhabited (SortedMap α β) := ⟨∅⟩

def find (m : SortedMap α β) (a : α) : Option β := (m.entries.find? (·.1 = a)).map (·.2)

def contains (m : SortedMap α β) (a : α) : Bool := (m.find a).isSome

def keys (m : SortedMap α β) : List α := m.entries.map (·.1)

def insert (m : SortedMap α β) (a : α) (b : β) : SortedMap α β :=
  ⟨insertEntry a b m.entries, insertEntry_sorted m.sorted⟩

/-- The entries that satisfy `p`. -/
def filter (p : α → β → Bool) (m : SortedMap α β) : SortedMap α β :=
  ⟨m.entries.filter fun x => p x.1 x.2, m.sorted.filter _⟩

def erase (m : SortedMap α β) (a : α) : SortedMap α β := m.filter fun c _ => c ≠ a

/-- Every value is rewritten. -/
def mapVal (f : α → β → γ) (m : SortedMap α β) : SortedMap α γ :=
  ⟨m.entries.map fun x => (x.1, f x.1 x.2), pairwise_map.mpr m.sorted⟩

/-- One value is rewritten, if the key has one. -/
def modify (m : SortedMap α β) (a : α) (f : β → β) : SortedMap α β :=
  m.mapVal fun c b => if c = a then f b else b

/-! ## Lookups -/

theorem mem_entries_iff : (a, b) ∈ m.entries ↔ m.find a = some b := by
  obtain ⟨l, hl⟩ := m
  unfold find
  dsimp only
  induction l with
  | nil => simp
  | cons y l ih =>
    obtain ⟨hy, hl'⟩ := pairwise_cons.mp hl
    rw [mem_cons, ih hl', find?_cons]
    by_cases h : y.1 = a
    · have hnot : (l.find? (·.1 = a)).map (·.2) = none := by
        rw [map_eq_none_iff, find?_eq_none]
        intro x hx hxa
        exact absurd (hy x hx) (by rw [h, of_decide_eq_true hxa]; exact lt_irrefl a)
      simp only [h, decide_true, hnot, map_some, some.injEq, reduceCtorEq, or_false]
      rw [Prod.ext_iff]
      exact ⟨fun he => he.2.symm, fun he => ⟨h.symm, he.symm⟩⟩
    · have hne : (a, b) ≠ y := fun he => h (by rw [← he])
      simp [h, hne]

theorem mem_keys_iff : a ∈ m.keys ↔ m.contains a = true := by
  unfold keys contains
  rw [List.mem_map, isSome_iff_exists]
  constructor
  · rintro ⟨⟨_, b⟩, hb, rfl⟩
    exact ⟨b, mem_entries_iff.mp hb⟩
  · rintro ⟨b, hb⟩
    exact ⟨(a, b), mem_entries_iff.mpr hb, rfl⟩

@[simp] theorem find_empty : (∅ : SortedMap α β).find a = none := rfl

theorem find_insert (m : SortedMap α β) (a : α) (b : β) (c : α) :
    (m.insert a b).find c = if c = a then some b else m.find c := by
  obtain ⟨l, hl⟩ := m
  unfold find insert
  dsimp only
  induction l with
  | nil =>
    by_cases h : c = a
    · simp [insertEntry, h]
    · simp [insertEntry, h, Ne.symm h]
  | cons y l ih =>
    obtain ⟨hy, hl'⟩ := pairwise_cons.mp hl
    have ih := ih hl'
    unfold insertEntry
    by_cases h : c = a
    · subst h
      rw [if_pos rfl] at ih ⊢
      split_ifs with h1 h2
      · simp
      · simp
      · rw [find?_cons_of_neg (by simpa using Ne.symm h2)]
        exact ih
    · rw [if_neg h] at ih ⊢
      split_ifs with h1 h2
      · rw [find?_cons_of_neg (by simpa using Ne.symm h)]
      · rw [find?_cons_of_neg (by simpa using Ne.symm h),
          find?_cons_of_neg (by simpa [← h2] using Ne.symm h)]
      · rw [find?_cons, find?_cons]
        split
        · rfl
        · exact ih

theorem find_filter (p : α → β → Bool) (m : SortedMap α β) (a : α) :
    (m.filter p).find a = (m.find a).filter (p a) := by
  refine ext fun b => ?_
  rw [← mem_entries_iff, filter_eq_some_iff, ← mem_entries_iff]
  exact mem_filter

theorem find_erase (m : SortedMap α β) (a c : α) :
    (m.erase a).find c = if c = a then none else m.find c := by
  unfold erase
  rw [find_filter]
  split_ifs with h
  · cases m.find c <;> simp [h]
  · cases m.find c <;> simp [h]

theorem find_mapVal (f : α → β → γ) (m : SortedMap α β) (a : α) :
    (m.mapVal f).find a = (m.find a).map (f a) := by
  refine ext fun b => ?_
  rw [← mem_entries_iff, map_eq_some_iff]
  constructor
  · intro h
    obtain ⟨x, hx, he⟩ := mem_map.mp h
    obtain ⟨rfl, rfl⟩ := Prod.mk.inj he
    exact ⟨x.2, mem_entries_iff.mp hx, rfl⟩
  · rintro ⟨x, hx, rfl⟩
    exact mem_map.mpr ⟨(a, x), mem_entries_iff.mpr hx, rfl⟩

theorem find_modify (m : SortedMap α β) (a : α) (f : β → β) (c : α) :
    (m.modify a f).find c = if c = a then (m.find c).map f else m.find c := by
  unfold modify
  rw [find_mapVal]
  split_ifs with h
  · simp [h]
  · simp

/-! ## Loops -/

/-- A loop whose rounds write one key each, never the same twice: what it leaves at a key is what the
round of the key made of the old value. -/
theorem find_foldl {ξ : Type} {f : SortedMap α β → ξ → SortedMap α β} {k : ξ → Option α}
    {g : ξ → Option β → Option β}
    (hf : ∀ m x c, (f m x).find c = if k x = some c then g x (m.find c) else m.find c)
    {l : List ξ} (hl : l.Pairwise fun x y => ∀ c, k x = some c → k y ≠ some c)
    (m : SortedMap α β) (c : α) :
    (∀ x ∈ l, k x = some c → (l.foldl f m).find c = g x (m.find c)) ∧
      ((∀ x ∈ l, k x ≠ some c) → (l.foldl f m).find c = m.find c) := by
  induction l generalizing m with
  | nil => exact ⟨fun x hx => absurd hx (not_mem_nil), fun _ => rfl⟩
  | cons y l ih =>
    obtain ⟨hy, hl⟩ := pairwise_cons.mp hl
    obtain ⟨ih1, ih2⟩ := ih hl (f m y)
    rw [foldl_cons]
    refine ⟨fun x hx hk => ?_, fun hne => ?_⟩
    · rcases mem_cons.mp hx with rfl | hx
      · rw [ih2 fun z hz => hy z hz c hk, hf, if_pos hk]
      · rw [ih1 x hx hk, hf, if_neg fun hk' => hy x hx c hk' hk]
    · rw [ih2 fun z hz => hne z (mem_cons_of_mem y hz), hf, if_neg (hne y mem_cons_self)]

/-- The entry of a new key is put somewhere among the others. -/
theorem insertEntry_perm {l : List (α × β)} (h : ∀ x ∈ l, x.1 ≠ a) :
    (insertEntry a b l).Perm ((a, b) :: l) := by
  induction l with
  | nil => exact List.Perm.refl _
  | cons y l ih =>
    unfold insertEntry
    split_ifs with h1 h2
    · exact List.Perm.refl _
    · exact absurd h2.symm (h y mem_cons_self)
    · have hl : ∀ x ∈ l, x.1 ≠ a := fun x hx => h x (mem_cons_of_mem y hx)
      exact ((ih hl).cons y).trans (List.Perm.swap (a, b) y l)

theorem entries_insert (h : m.find a = none) (b : β) :
    (m.insert a b).entries.Perm ((a, b) :: m.entries) := by
  refine insertEntry_perm fun x hx he => ?_
  have hfind : m.find x.1 = some x.2 := mem_entries_iff.mp hx
  rw [he, h] at hfind
  cases hfind

theorem keys_nodup (m : SortedMap α β) : m.keys.Nodup :=
  pairwise_map.mpr (m.sorted.imp ne_of_lt)

theorem keys_pairwise (m : SortedMap α β) : m.entries.Pairwise fun x y => x.1 ≠ y.1 :=
  m.sorted.imp ne_of_lt

end SortedMap

end Windrunner.Lib
