import Windrunner.GuildBank.Slots

/-!
# The bank and its table

* A bank writes its rows only (`reachable_others`), provided that no item that is queued as changed
  has the guid of a row of the guild's other bank: the `UPDATE` of an item does not name the bank.
* `Vault.Drained`: once the update queue is drained, the rows of the bank are the rows of its items.
  Every edit keeps this but the one a swap makes (`reachable_agrees`).
-/

namespace Windrunner

open Lib List

variable {db : ItemDb}

namespace Vault

variable (v : Vault)

/-- A row of this bank. -/
def IsOwn (r : ItemRow) : Prop := r.guildid = v.guildid ∧ r.isInferno = v.infernoBank

instance : DecidablePred v.IsOwn := fun r =>
  inferInstanceAs (Decidable (r.guildid = v.guildid ∧ r.isInferno = v.infernoBank))

def othersOf (rows : List ItemRow) : List ItemRow := rows.filter fun r => ¬ v.IsOwn r

/-- No row of the guild's other bank has the guid. -/
def Apart (rows : List ItemRow) (guid : UInt32) : Prop :=
  ∀ r ∈ rows, r.guildid = v.guildid → r.isInferno ≠ v.infernoBank → r.guid ≠ guid

variable {v} {rows rows' : List ItemRow} {x : BankItem} {g : UInt32}

theorem Apart.congr (h : v.Apart rows g) (he : v.othersOf rows' = v.othersOf rows) :
    v.Apart rows' g := by
  intro r hr hg hi
  have hother : ¬ v.IsOwn r := fun h => hi h.2
  have hmem : r ∈ v.othersOf rows' := mem_filter.mpr ⟨hr, by simpa using hother⟩
  rw [he] at hmem
  exact h r (mem_filter.mp hmem).1 hg hi

theorem matchesGuid_iff {r : ItemRow} :
    r.matchesGuid x = true ↔ r.guildid = x.guildid ∧ r.guid = x.guid := by
  simp [ItemRow.matchesGuid]

theorem matchesKey_iff {r : ItemRow} :
    r.matchesKey x = true ↔ (r.guildid = x.guildid ∧ r.guid = x.guid) ∧ r.isInferno = x.isInferno := by
  simp [ItemRow.matchesKey, ItemRow.matchesGuid]

/-- With a guid apart, the rows an update names are rows of the bank. -/
theorem Apart.own_of_matches (ha : v.Apart rows x.guid) (hx : v.Own x) {r : ItemRow} (hr : r ∈ rows)
    (hm : r.matchesGuid x = true) : v.IsOwn r := by
  obtain ⟨h1, h2⟩ := matchesGuid_iff.mp hm
  refine ⟨h1.trans hx.1, ?_⟩
  by_contra hi
  exact ha r hr (h1.trans hx.1) hi h2

/-- A statement for an item of the bank leaves the rows of other banks alone. Only an update needs the
guid to be apart. -/
theorem writeItem_others (hx : v.Own x) (ha : x.state = .changed → v.Apart rows x.guid)
    (h : writeItem rows x = some rows') : v.othersOf rows' = v.othersOf rows := by
  unfold writeItem at h
  cases hs : x.state with
  | new =>
    rw [hs] at h
    dsimp only [BankItem.addToDB] at h
    split_ifs at h
    rw [← Option.some.inj h]
    have hrow : v.IsOwn x.toRow := hx
    unfold othersOf
    rw [filter_append, filter_cons_of_neg (by simpa using hrow), filter_nil,
      append_nil]
  | changed =>
    rw [hs] at h
    dsimp only [BankItem.saveToDB] at h
    split_ifs at h
    rw [← Option.some.inj h]
    refine filter_map_other fun r hr => ?_
    split_ifs with hm
    · exact .inl ⟨(ha hs).own_of_matches hx hr hm, hx⟩
    · exact .inr rfl
  | removed =>
    rw [hs] at h
    rw [← Option.some.inj h]
    unfold othersOf BankItem.deleteFromDB
    rw [filter_filter]
    refine filter_congr fun r hr => ?_
    by_cases hown : v.IsOwn r
    · simp [hown]
    · have hm : ¬ r.matchesKey x = true := fun hm => by
        obtain ⟨⟨h1, -⟩, h2⟩ := matchesKey_iff.mp hm
        exact hown ⟨h1.trans hx.1, h2.trans hx.2⟩
      simp [hown, hm]
  | unchanged =>
    rw [hs] at h
    rw [← Option.some.inj h]

theorem drain_others {queue : List BankItem}
    (hq : ∀ q ∈ queue, v.Own q ∧ (q.state = .changed → v.Apart rows q.guid))
    (h : queue.foldlM writeItem rows = some rows') : v.othersOf rows' = v.othersOf rows := by
  induction queue generalizing rows with
  | nil => rw [← Option.some.inj h]
  | cons x queue ih =>
    rw [foldlM_cons] at h
    obtain ⟨rows₁, h₁, h⟩ := Option.bind_eq_some_iff.mp h
    obtain ⟨hx, ha⟩ := hq x mem_cons_self
    have ho := writeItem_others hx ha h₁
    rw [ih (fun q hmem => ?_) h, ho]
    obtain ⟨hqx, hqa⟩ := hq q (mem_cons_of_mem _ hmem)
    exact ⟨hqx, fun hs => (hqa hs).congr ho⟩

/-- What a message may queue as changed has guids apart from the other bank. -/
def Spared (c : Terms) (v : Vault) : Prop := ∀ g, c.changed g → v.Apart v.rows g

/-- What is queued are items of the bank, those queued as changed have guids of their own, and the rows
of other banks are `others`. -/
structure Kept (others : List ItemRow) (v : Vault) : Prop where
  tagged : v.Tagged
  queue : ∀ q ∈ v.queue, v.Own q ∧ (q.state = .changed → v.Apart v.rows q.guid)
  rows : v.othersOf v.rows = others

variable {others : List ItemRow} {c : Terms} {v' : Vault}

theorem Kept.drained (h : Kept others v) :
    v.othersOf ((v.queue.foldlM writeItem v.rows).getD v.rows) = v.othersOf v.rows := by
  cases hd : v.queue.foldlM writeItem v.rows with
  | none => rfl
  | some rows => exact drain_others h.queue hd

theorem Kept.flush (h : Kept others v) : Kept others v.flush := by
  have htag := h.tagged.flush
  unfold Vault.flush at htag ⊢
  split_ifs with hq
  · exact h
  · rw [if_neg hq] at htag
    exact ⟨htag, nofun, h.drained.trans h.rows⟩

/-- One more queued item. -/
theorem Kept.enqueue {items : List BankItem} (h : Kept others v) (hx : v.Own x)
    (ha : x.state = .changed → v.Apart v.rows x.guid) (hi : ∀ y ∈ items, v.Own y) :
    Kept others { v with items, queue := v.queue ++ [x] } := by
  refine ⟨hi, fun q hq => ?_, h.rows⟩
  obtain hq | hq := mem_append.mp hq
  · exact h.queue q hq
  · rw [mem_singleton.mp hq]
    exact ⟨hx, ha⟩

theorem own_set {i : Nat} (h : v.Tagged) (hx : v.Own x) : ∀ y ∈ v.items.set i x, v.Own y := by
  intro y hy
  obtain hy | rfl := mem_or_eq_of_mem_set hy
  · exact h y hy
  · exact hx

theorem Kept.put {i : Nat} (h : Kept others v) (hx : v.Own x) (ha : v.Apart v.rows x.guid) :
    Kept others (v.put i x) := h.enqueue hx (fun _ => ha) (own_set h.tagged hx)

theorem Spared.flush (h : v.Spared c) (hk : Kept others v) : v.flush.Spared c := by
  unfold Vault.flush
  split_ifs with hq
  · exact h
  · exact fun g hg => (h g hg).congr hk.drained

/-- On terms that spare the other bank, an edit keeps the rows of other banks. -/
theorem Kept.edit (hg : c.good) (hc : v.Spared c) (h : Kept others v) (e : Edit db c v v') :
    Kept others v' ∧ v'.Spared c := by
  cases e with
  | @set i x x' hi ht hx own hch =>
    have ha : v.Apart v.rows x'.guid := by rw [hx.guid]; exact hc _ hch
    exact ⟨h.put (own hg) ha, hc⟩
  | @relocate i slot x hi ht hs hfree hch =>
    exact ⟨h.put (h.tagged x (mem_of_getElem? hi)) (hc _ hch), hc⟩
  | @exchange i j x y hi hj ht htab hne hcx hcy =>
    have h₁ := h.put (i := i) (x := { x with slot := y.slot, state := .changed })
      (h.tagged x (mem_of_getElem? hi)) (hc _ hcx)
    exact ⟨h₁.put (h.tagged y (mem_of_getElem? hj)) (hc _ hcy), hc⟩
  | @add x htab hs ht hfree hguid fresh own typed hstate =>
    refine ⟨h.enqueue (own hg) (fun hch => ?_) fun y hy => ?_, hc⟩
    · rw [hstate] at hch
      cases hch
    · obtain hy | hy := mem_append.mp hy
      · exact h.tagged y hy
      · rw [mem_singleton.mp hy]; exact own hg
  | @drop i x hi =>
    have hx := h.tagged x (mem_of_getElem? hi)
    exact ⟨h.enqueue (x := { x with state := .removed }) hx nofun fun y hy =>
      h.tagged y (mem_of_mem_eraseIdx hy), hc⟩
  | @stray x hs own =>
    exact ⟨h.enqueue (x := { x with state := .removed }) (own hg) nofun h.tagged, hc⟩
  | flush => exact ⟨h.flush, hc.flush h⟩

theorem Kept.edits (hg : c.good) (hc : v.Spared c) (h : Kept others v)
    (e : Relation.ReflTransGen (Edit db c) v v') : Kept others v' ∧ v'.Spared c := by
  induction e with
  | refl => exact ⟨h, hc⟩
  | tail _ e ih => exact ih.1.edit hg ih.2 e

end Vault

/-! ## The rows of the bank -/

namespace Vault

variable {v v' : Vault} {rows rows' : List ItemRow} {x x' : BankItem} {i : Nat} {c : Terms}

/-- The rows of this bank. -/
def ownOf (v : Vault) (rows : List ItemRow) : List ItemRow := rows.filter fun r => v.IsOwn r

/-- The rows of the bank are those of the items, in some order. -/
structure Shows (v : Vault) (items : List BankItem) (rows : List ItemRow) : Prop where
  guids : Keyed (·.guid) items
  own : ∀ y ∈ items, v.Own y
  rows : (v.ownOf rows).Perm (items.map BankItem.toRow)

namespace Shows

variable {items : List BankItem}

section

variable (h : v.Shows items rows)
include h

/-- A row of the bank is the row of an item. -/
theorem item {r : ItemRow} (hr : r ∈ rows) (hown : v.IsOwn r) :
    ∃ y ∈ items, y.toRow = r := by
  have hmem : r ∈ v.ownOf rows := mem_filter.mpr ⟨hr, by simpa using hown⟩
  exact mem_map.mp (h.rows.mem_iff.mp hmem)

/-- At most one row has the guid of an item. -/
theorem countP_le (hx : v.Own x) (ha : v.Apart rows x.guid) :
    rows.countP (·.matchesGuid x) ≤ 1 := by
  have hown : rows.countP (·.matchesGuid x) = (v.ownOf rows).countP (·.matchesGuid x) := by
    unfold ownOf
    rw [countP_filter]
    refine countP_congr fun r hr => ?_
    rw [Bool.and_eq_true, decide_eq_true_iff]
    exact ⟨fun hm => ⟨hm, ha.own_of_matches hx hr hm⟩, fun hm => hm.1⟩
  rw [hown, h.rows.countP_eq, countP_map]
  have hkey := h.guids
  have hg := h.own
  clear h hown
  induction items with
  | nil => exact Nat.zero_le _
  | cons y items ih =>
    obtain ⟨hne, hkey⟩ := Keyed.cons_iff.mp hkey
    have ih := ih hkey fun z hz => hg z (mem_cons_of_mem _ hz)
    rw [countP_cons]
    split_ifs with hm
    · -- the other items have other guids
      have hzero : items.countP ((·.matchesGuid x) ∘ BankItem.toRow) = 0 := by
        rw [countP_eq_zero]
        intro z hz hmz
        exact hne z hz ((matchesGuid_iff.mp hmz).2.trans (matchesGuid_iff.mp hm).2.symm)
      omega
    · omega

theorem update (hi : items[i]? = some x) (hg : x'.guid = x.guid)
    (hx : v.Own x') (ha : v.Apart rows x'.guid) (hs : x'.state = .changed) :
    ∃ rows', writeItem rows x' = some rows' ∧ v.Shows (items.set i x') rows' := by
  have hcount := h.countP_le hx ha
  refine ⟨rows.map fun r => if r.matchesGuid x' then x'.toRow else r, ?_, ?_⟩
  · unfold writeItem
    rw [hs]
    exact if_neg (by omega)
  refine ⟨h.guids.set_key hi hg, ?_, ?_⟩
  · intro y hy
    obtain hy | rfl := mem_or_eq_of_mem_set hy
    · exact h.own y hy
    · exact hx
  have hmatch : ∀ y ∈ items, (y.toRow.matchesGuid x' = true ↔ y.guid = x.guid) := by
    intro y hy
    rw [matchesGuid_iff, ← hg]
    exact and_iff_right ((h.own y hy).1.trans hx.1.symm)
  have hfilter : v.ownOf (rows.map fun r => if r.matchesGuid x' then x'.toRow else r) =
      (v.ownOf rows).map fun r => if r.matchesGuid x' then x'.toRow else r := by
    unfold ownOf
    rw [filter_map]
    refine congrArg _ (filter_congr fun r hr => ?_)
    dsimp only [Function.comp]
    split_ifs with hm
    · have hrow : v.IsOwn x'.toRow := hx
      simp [hrow, ha.own_of_matches hx hr hm]
    · rfl
  rw [hfilter]
  refine (h.rows.map _).trans ?_
  rw [map_map, ← h.guids.map_replace (f := BankItem.toRow) (z := x') hi]
  refine List.Perm.of_eq (map_congr_left fun y hy => ?_)
  dsimp only [Function.comp]
  by_cases hy' : y.guid = x.guid
  · rw [if_pos ((hmatch y hy).mpr hy'), if_pos hy']
  · rw [if_neg fun hm => hy' ((hmatch y hy).mp hm), if_neg hy']

/-- The insertion of a new item. -/
theorem insert (hg : ∀ y ∈ items, y.guid ≠ x.guid) (hlt : x.guid < guidLimit) (hx : v.Own x)
    (hs : x.state = .new) : ∃ rows', writeItem rows x = some rows' ∧ v.Shows (items ++ [x]) rows' := by
  have hrow : v.IsOwn x.toRow := hx
  have hnone : ¬ rows.any (·.matchesKey x) = true := by
    intro hany
    obtain ⟨r, hr, hm⟩ := any_eq_true.mp hany
    obtain ⟨⟨h1, h2⟩, h3⟩ := matchesKey_iff.mp hm
    obtain ⟨y, hy, rfl⟩ := h.item hr ⟨h1.trans hx.1, h3.trans hx.2⟩
    exact hg y hy h2
  refine ⟨rows ++ [x.toRow], ?_, h.guids.concat hg, ?_, ?_⟩
  · unfold writeItem
    rw [hs]
    exact (if_neg hnone).trans (if_neg (UInt32.not_le.mpr hlt))
  · intro y hy
    obtain hy | hy := mem_append.mp hy
    · exact h.own y hy
    · rw [mem_singleton.mp hy]; exact hx
  · unfold ownOf
    rw [filter_append, filter_cons_of_pos (by simpa using hrow), filter_nil,
      map_append]
    exact h.rows.append (.refl _)

/-- The deletion of an item. -/
theorem delete (hi : items[i]? = some x) :
    ∃ rows', writeItem rows { x with state := .removed } = some rows' ∧
      v.Shows (items.eraseIdx i) rows' := by
  have hx := h.own x (mem_of_getElem? hi)
  refine ⟨_, rfl, h.guids.eraseIdx i, fun y hy => h.own y (mem_of_mem_eraseIdx hy), ?_⟩
  unfold ownOf BankItem.deleteFromDB
  rw [filter_filter]
  have hfilter : (rows.filter fun r => decide (v.IsOwn r) && !r.matchesKey { x with state := .removed }) =
      (v.ownOf rows).filter fun r => !decide (r.guid = x.guid) := by
    unfold ownOf
    rw [filter_filter]
    refine filter_congr fun r hr => ?_
    by_cases hown : v.IsOwn r
    · have hm : r.matchesKey { x with state := .removed } = decide (r.guid = x.guid) := by
        rw [Bool.eq_iff_iff, matchesKey_iff, decide_eq_true_iff]
        exact ⟨fun hm => hm.1.2, fun hm => ⟨⟨hown.1.trans hx.1.symm, hm⟩, hown.2.trans hx.2.symm⟩⟩
      simp [hown, hm]
    · simp [hown]
  rw [hfilter]
  refine (h.rows.filter _).trans (List.Perm.of_eq ?_)
  rw [← h.guids.filter_ne hi, filter_map]
  rfl

end

end Shows

/-- Once the queue is drained, the table shows the items. -/
def Drained (v : Vault) : Prop :=
  ∃ rows, v.queue.foldlM writeItem v.rows = some rows ∧ v.Shows v.items rows

variable {others : List ItemRow}

/-- One more queued item whose statement brings the table up to date. -/
theorem Drained.push {items : List BankItem} (h : v.Drained) (hk : Kept others v)
    (hw : ∀ rows, v.othersOf rows = v.othersOf v.rows → v.Shows v.items rows →
      ∃ rows', writeItem rows x = some rows' ∧ v.Shows items rows') :
    Drained { v with items, queue := v.queue ++ [x] } := by
  obtain ⟨rows, hd, hs⟩ := h
  obtain ⟨rows', hx, hs'⟩ := hw rows (drain_others hk.queue hd) hs
  refine ⟨rows', ?_, hs'.guids, hs'.own, hs'.rows⟩
  show (v.queue ++ [x]).foldlM writeItem v.rows = some rows'
  rw [foldlM_append, hd]
  simpa using hx

theorem Drained.put (h : v.Drained) (hk : Kept others v) (hi : v.items[i]? = some x)
    (hg : x'.guid = x.guid) (hx : v.Own x') (ha : v.Apart v.rows x'.guid)
    (hs : x'.state = .changed) : (v.put i x').Drained :=
  h.push hk fun _ ho hshows => hshows.update hi hg hx (ha.congr ho) hs

theorem flush_queue (v : Vault) : v.flush.queue = [] := by
  unfold Vault.flush
  split_ifs with hq
  · exact hq
  · rfl

/-- With nothing queued, the table itself shows the items. -/
theorem Drained.shows (h : v.Drained) (hq : v.queue = []) : v.Shows v.items v.rows := by
  obtain ⟨rows, hd, hs⟩ := h
  rw [hq] at hd
  rw [Option.some.inj hd]
  exact hs

theorem Drained.flush (h : v.Drained) : v.flush.Drained := by
  obtain ⟨rows, hd, hs⟩ := h
  unfold Vault.flush
  split_ifs with hq
  · exact ⟨rows, hd, hs⟩
  refine ⟨rows, ?_, hs.guids.map fun _ _ => rfl, ?_, ?_⟩
  · show some ((v.queue.foldlM writeItem v.rows).getD v.rows) = some rows
    rw [hd]
    rfl
  · intro y hy
    obtain ⟨z, hz, rfl⟩ := mem_map.mp hy
    exact hs.own z hz
  · show (v.ownOf rows).Perm ((v.items.map _).map BankItem.toRow)
    rw [map_map]
    exact hs.rows

/-- Every edit but the one of a swap keeps the table in step. -/
theorem Drained.edit (hg : c.good) (hf : c.fresh) (hs : ¬ c.swaps) (hlt : c.mints → c.guid < guidLimit)
    (hc : v.Spared c) (hk : Kept others v) (h : v.Drained) (e : Edit db c v v') : v'.Drained := by
  cases e with
  | @set i x x' hi ht hx own hch =>
    have ha : v.Apart v.rows x'.guid := by rw [hx.guid]; exact hc _ hch
    exact h.put hk hi hx.guid (own hg) ha hx.state
  | @relocate i slot x hi ht hs hfree hch =>
    exact h.put hk hi rfl (hk.tagged x (mem_of_getElem? hi)) (hc _ hch) rfl
  | @exchange i j x y hi hj ht htab hne hcx hcy =>
    have hx := mem_of_getElem? hi
    have hy := mem_of_getElem? hj
    have hij := index_ne hi hj hne
    let x' : BankItem := { x with slot := y.slot, state := .changed }
    have hj' : (v.put i x').items[j]? = some y := by
      show (v.items.set i x')[j]? = some y
      rw [getElem?_set_ne hij]
      exact hj
    have h₁ : (v.put i x').Drained := h.put hk hi rfl (hk.tagged x hx) (hc _ hcx) rfl
    have hk₁ : Kept others (v.put i x') := hk.put (hk.tagged x hx) (hc _ hcx)
    exact h₁.put hk₁ hj' rfl (hk.tagged y hy) (hc _ hcy) rfl
  | @add x htab hsl ht hfree hguid fresh own typed hstate minted =>
    refine h.push hk fun rows _ hshows => hshows.insert (fun y hy => ?_) ?_ (own hg) hstate
    · rw [hguid]
      exact fresh hf y hy
    · rw [hguid]
      exact hlt minted
  | @drop i x hi =>
    exact h.push (x := { x with state := .removed }) hk fun rows _ hshows => hshows.delete hi
  | stray hswap => exact absurd hswap hs
  | flush => exact h.flush

theorem Drained.edits (hg : c.good) (hf : c.fresh) (hs : ¬ c.swaps) (hlt : c.mints → c.guid < guidLimit)
    (hc : v.Spared c) (hk : Kept others v) (h : v.Drained)
    (e : Relation.ReflTransGen (Edit db c) v v') : v'.Drained := by
  induction e with
  | refl => exact h
  | tail he e ih =>
    obtain ⟨hk', hc'⟩ := Kept.edits hg hc hk he
    exact ih.edit hg hf hs hlt hc' hk' e

end Vault

/-! ## The other bank -/

namespace World

variable {env : Env} {t : Tables} {guildid : Nat} {infernoBank : Bool} {player : Player db}

/-- No item that the command `name` queues as changed has the guid of a row of the guild's other
bank. -/
def Spares (env : Env) (msg : Text) (name : String) (w : World db) : Prop :=
  ∀ r ∈ w.tables.items, r.guildid = w.bank.guildid → r.isInferno ≠ w.bank.infernoBank →
    ¬ w.ChangesBy env msg name r.guid

instance (env : Env) (msg : Text) (name : String) (w : World db) :
    Decidable (w.Spares env msg name) := by
  unfold Spares
  infer_instance

theorem Spares.spared {w : World db} {msg : Text} {name : String} (h : w.Spares env msg name)
    (hT : w.bank.Typed db) : w.vault.Spared (w.terms env msg name) := by
  rintro g hg r hr hguild hinferno rfl
  exact h r hr hguild hinferno (hg hT)

theorem kept_start : Vault.Kept ((blank t guildid infernoBank).othersOf t.items)
    (start env t guildid infernoBank player).vault := by
  have hblank : Vault.Kept ((blank t guildid infernoBank).othersOf t.items)
      (blank t guildid infernoBank) :=
    ⟨nofun, nofun, rfl⟩
  obtain ⟨h | ⟨h, -⟩, -⟩ := @start_vault db env t guildid infernoBank player
  · rw [h]; exact ⟨tagged_load hblank.tagged, hblank.queue, rfl⟩
  · rw [h]; exact hblank

/-- The money and tabs rows of other banks are never changed; their item rows are not changed in any
run in which no item that is queued as changed has the guid of a row of the guild's other bank. -/
theorem reachable_others (is : List (Input db)) :
    (AlongRun step (StepOk (fun _ => True) Spares)
        (start env t guildid infernoBank player) is →
      ((run step (start env t guildid infernoBank player) is).tables.items.filter fun r =>
          ¬ (r.guildid = guildid ∧ r.isInferno = infernoBank)) =
        t.items.filter fun r => ¬ (r.guildid = guildid ∧ r.isInferno = infernoBank)) ∧
    ((run step (start env t guildid infernoBank player) is).tables.money.filter fun r =>
        ¬ (r.guildid = guildid ∧ r.isInferno = infernoBank)) =
      (t.money.filter fun r => ¬ (r.guildid = guildid ∧ r.isInferno = infernoBank)) ∧
    ((run step (start env t guildid infernoBank player) is).tables.tabs.filter fun r =>
        ¬ (r.guildid = guildid ∧ r.isInferno = infernoBank)) =
      t.tabs.filter fun r => ¬ (r.guildid = guildid ∧ r.isInferno = infernoBank) := by
  have hstart : (start env t guildid infernoBank player).bank.guildid = guildid ∧
      (start env t guildid infernoBank player).bank.infernoBank = infernoBank := by
    obtain ⟨h | ⟨h, -⟩, -⟩ := @start_vault db env t guildid infernoBank player
    · exact ⟨congrArg Vault.guildid h, congrArg Vault.infernoBank h⟩
    · exact ⟨congrArg Vault.guildid h, congrArg Vault.infernoBank h⟩
  have hid : (run step (start env t guildid infernoBank player) is).ident =
      (start env t guildid infernoBank player).ident :=
    run_invariant (I := fun w => w.ident = (start env t guildid infernoBank player).ident)
      (fun w i h => (step_ident w i).trans h) rfl is
  obtain ⟨hbank, hinfo⟩ := Prod.mk.inj hid
  obtain ⟨hg, hi⟩ := Prod.mk.inj hbank
  obtain ⟨hm, ht⟩ := Prod.mk.inj hinfo
  rw [hstart.1] at hg
  rw [hstart.2] at hi
  refine ⟨fun hrun => ?_, ?_, ?_⟩
  · let J : Vault → Prop := fun v =>
      Vault.Kept ((blank t guildid infernoBank).othersOf t.items) v ∧ v.Typed db
    have hheld : Held J (fun _ => True) (start env t guildid infernoBank player) :=
      ⟨⟨kept_start, typed_start⟩, fun _ => trivial, (start_vault env t guildid infernoBank player).2⟩
    have h := run_held (fun v h => ⟨h.1.flush, h.2.flush⟩) (fun _ _ => trivial) ?_ ?_ hheld hrun
    · have h := h.vault.1.rows
      unfold Vault.othersOf Vault.IsOwn blank vault at h
      dsimp only at h
      rw [hg, hi] at h
      exact h
    · intro env msg w cmd hmem hj hspares
      have he := command_edits hmem w
      exact ⟨(Vault.Kept.edits hj.1.tagged (hspares.spared hj.2) hj.1 he).1, typed_of_edits hj.2 he⟩
    · intro env w h _
      obtain ⟨hk, ht⟩ := h.vault
      exact h.unlock ⟨⟨tagged_load hk.tagged, hk.queue, hk.rows⟩, ht.load⟩ trivial
  · unfold frame at hm
    dsimp only at hm
    rw [hg, hi, hstart.1, hstart.2] at hm
    exact hm
  · unfold frame at ht
    dsimp only at ht
    rw [hg, hi, hstart.1, hstart.2] at ht
    exact ht

/-! ## Persistence -/

def Agrees (w : World db) : Prop :=
  (w.bank.ownRows w.tables.items).Perm (w.bank.items.map BankItem.toRow)

/-- What a command must not do for the table to follow. -/
@[mk_iff]
structure Followed (env : Env) (msg : Text) (name : String) (w : World db) : Prop where
  spares : w.Spares env msg name
  fits : name = "DepositItem:" ∨ name = "SplitItem:" → w.bank.GuidsLeft
  swaps : ¬ w.SwapsBy env msg name

instance (env : Env) (msg : Text) (name : String) (w : World db) :
    Decidable (Followed env msg name w) := decidable_of_iff _ (followed_iff ..).symm

instance (w : World db) : Decidable w.Agrees := by
  unfold Agrees
  infer_instance

end World

/-- The tables of a guild with two banks: cloth with guid 1 in both, and more with guid 2 in the second. -/
def twoBanks : Tables :=
  { clothTables with
    items := [clothRow, { clothRow with isInferno := true },
      { clothRow with guid := 2, isInferno := true, slot := 2 }] }

/-- A stack of the first bank is split, which fails in the database because the update finds two rows
with guid 1; the new stack, with guid 2, is moved, and the update finds the row of the other bank. -/
theorem twoBanks_overwritten :
    ¬ (((run World.step (World.start {} twoBanks 1 false master)
        [.message {} master "SplitItem:1:1:2:2".toList, .message {} master "MoveItem:1:2:3".toList,
          .save]).tables.items.filter fun r => ¬ (r.guildid = 1 ∧ r.isInferno = false)) =
      twoBanks.items.filter fun r => ¬ (r.guildid = 1 ∧ r.isInferno = false)) := by
  decide

/-- The cloth of the first bank is withdrawn: it is deleted by its bank, and the row of the other bank
with the same guid stays. -/
theorem twoBanks_others :
    (run World.step (World.start {} twoBanks 1 false master)
        [.message {} master "GetBankInfo:".toList,
          .message {} master "WithdrawItem:1:1:0:0:5".toList]).tables.items.filter
        (fun r => ¬ (r.guildid = 1 ∧ r.isInferno = false)) =
      twoBanks.items.filter fun r => ¬ (r.guildid = 1 ∧ r.isInferno = false) := by
  refine (World.reachable_others _).1 ⟨⟨?_, ?_⟩, ⟨?_, ?_⟩, trivial⟩
  · exact fun _ => trivial
  · exact fun _ => by decide
  · exact fun _ => trivial
  · exact fun _ => by decide

/-- A guild master with a bag in the first backpack slot. -/
def bagOwner : Player sampleDb := { master with inv := pouchInBackpack }

end Windrunner
