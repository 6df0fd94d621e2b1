import Windrunner.Lib.Squeeze
import Windrunner.PacketBroadcast.PlayerBroadcaster

/-!
# Who receives which movement packets

The queue of a broadcaster is `Lib.squeezeAll` of what was queued since it was last processed
(`run_inv`), and what is processed goes to its addressees (`received_deliver`).

* `Broadcasts`: somebody receives what is addressed to him in order and at most once, all of it that may
  not be skipped, and the last of it in every batch.
* `broadcasts_iff`: so it is for everybody, unless a packet is replaced that somebody is an addressee of who
  is one neither of the packet that replaces it nor of a later one of the batch.
-/

namespace Windrunner

open Lib List

namespace PlayerBroadcaster

variable (b : PlayerBroadcaster)

def skippable (d : BroadcastData) : Bool := canSkipPacket d.packet.opcode

theorem queuePacket_queue (packet : WorldPacket) (self : Bool) (except : Nat) :
    (b.queuePacket packet self except).queue =
      squeeze b.maxQueueSize skippable b.queue ⟨packet, self, except, b.calls⟩ := by
  unfold queuePacket
  dsimp only
  rcases b.queue.eq_nil_or_concat' with h | ⟨q, l, h⟩
  · rw [h]
    simp [squeeze]
  · rw [h, squeeze_concat, getLast?_concat, dropLast_concat]
    simp only [skippable, Bool.and_eq_true]
    split_ifs <;> grind

/-- `x` is one of those that `ProcessQueue` sends the packet to. -/
def isAddressee (x : Nat) (d : BroadcastData) : Bool :=
  (x == b.self && b.socket && d.sendToSelf && d.except != b.self) ||
    (b.listeners.find x == some true && x != d.except)

/-- What somebody receives -/
def received (x : Nat) (sent : List (Nat × BroadcastData)) : List BroadcastData :=
  (sent.filter (·.1 == x)).map (·.2)

theorem received_append (x : Nat) (s t : List (Nat × BroadcastData)) :
    received x (s ++ t) = received x s ++ received x t := by
  unfold received
  rw [filter_append, map_append]

theorem mem_received {x : Nat} {d : BroadcastData} {sent : List (Nat × BroadcastData)} :
    d ∈ received x sent ↔ (x, d) ∈ sent := by
  simp [received]

theorem received_sendPacket (x : Nat) (receiver : Nat × Bool) (d : BroadcastData) :
    received x (sendPacket receiver d) = if receiver = (x, true) then [d] else [] := by
  obtain ⟨guid, socket⟩ := receiver
  unfold received sendPacket
  cases socket <;> by_cases h : guid = x <;> simp [h]

/-- A listener is in the map once. -/
theorem received_entries (x : Nat) (d : BroadcastData) {l : List (Nat × Bool)}
    (hl : l.Pairwise (·.1 < ·.1)) :
    received x (l.flatMap fun itr => if itr.1 = d.except then [] else sendPacket itr d) =
      if (x, true) ∈ l ∧ x ≠ d.except then [d] else [] := by
  induction l with
  | nil => simp [received]
  | cons y l ih =>
    obtain ⟨hy, hl⟩ := pairwise_cons.1 hl
    rw [flatMap_cons, received_append, ih hl]
    have hout : y = (x, true) → (x, true) ∉ l := fun hyx hmem => by
      have hlt := hy _ hmem
      rw [hyx] at hlt
      exact lt_irrefl _ hlt
    split_ifs with h1 h2 h3 h3 h4 <;> grind [received_sendPacket, received]

/-- The player himself -/
theorem received_self (x : Nat) (d : BroadcastData) :
    received x (if d.sendToSelf ∧ d.except ≠ b.self then sendPacket (b.self, b.socket) d else []) =
      if x = b.self ∧ b.socket ∧ d.sendToSelf ∧ d.except ≠ b.self then [d] else [] := by
  by_cases h : d.sendToSelf ∧ d.except ≠ b.self
  · have hiff : (b.self, b.socket) = (x, true) ↔ x = b.self ∧ b.socket ∧ d.sendToSelf ∧ d.except ≠ b.self := by
      rw [Prod.mk.injEq]
      exact ⟨fun he => ⟨he.1.symm, he.2, h⟩, fun he => ⟨he.1.symm, he.2.1⟩⟩
    rw [if_pos h, received_sendPacket]
    simp only [hiff]
  · rw [if_neg h, if_neg fun h' => h h'.2.2]
    rfl

/-- Nobody receives a packet twice. -/
theorem received_deliver (x : Nat) (d : BroadcastData) :
    received x (b.deliver d) = if b.isAddressee x d then [d] else [] := by
  unfold deliver
  rw [received_append, received_self, received_entries x d b.listeners.sorted]
  simp only [SortedMap.mem_entries_iff, isAddressee]
  by_cases hx : x = b.self
  · subst hx
    simp [b.self_out, and_assoc]
  · simp [hx]

/-! ## Runs -/

theorem received_flatMap (x : Nat) (q : List BroadcastData) :
    received x (q.flatMap b.deliver) = q.filter (b.isAddressee x) := by
  induction q with
  | nil => rfl
  | cons d q ih =>
    rw [flatMap_cons, received_append, ih, received_deliver, filter_cons]
    split_ifs <;> rfl

/-- The queue before a batch is processed -/
def kept (batch : List BroadcastData) : List BroadcastData :=
  squeezeAll b.maxQueueSize skippable batch

/-- What a run has done, by its batches -/
structure Run.Inv (r : Run) : Prop where
  self_eq : r.broadcaster.self = b.self
  socket_eq : r.broadcaster.socket = b.socket
  listeners_eq : r.broadcaster.listeners = b.listeners
  max_eq : r.broadcaster.maxQueueSize = b.maxQueueSize
  queue_eq : r.broadcaster.queue = b.kept r.batch
  sent_eq : r.sent = r.batches.flatMap fun batch => (b.kept batch).flatMap b.deliver
  /-- The calls are numbered one after the other. -/
  calls_eq : (r.batches.flatten ++ r.batch).map (·.call) = range r.broadcaster.calls

variable {b}

theorem deliver_congr {b' : PlayerBroadcaster} (hself : b'.self = b.self)
    (hsocket : b'.socket = b.socket) (hlisteners : b'.listeners = b.listeners) :
    b'.deliver = b.deliver := by
  funext d
  unfold deliver
  rw [hself, hsocket, hlisteners]

/-- One call keeps the account of what was queued and sent. -/
theorem Run.Inv.op {r : Run} (h : r.Inv b) (op : Op) : (r.op op).Inv b := by
  cases op with
  | queuePacket packet self except =>
    refine { h with queue_eq := ?_, calls_eq := ?_ }
    · unfold kept
      rw [Run.op, queuePacket_queue, squeezeAll_concat, h.queue_eq, h.max_eq]
      rfl
    · have hcalls : (r.op (.queuePacket packet self except)).broadcaster.calls =
          r.broadcaster.calls + 1 := rfl
      rw [hcalls, range_succ, ← h.calls_eq, Run.op, ← append_assoc, map_append]
      rfl
  | processQueue =>
    have hcalls : (r.batches ++ [r.batch]).flatten ++ [] = r.batches.flatten ++ r.batch := by simp
    have hsent : (r.batches ++ [r.batch]).flatMap (fun batch => (b.kept batch).flatMap b.deliver) =
        r.sent ++ r.broadcaster.queue.flatMap b.deliver := by
      rw [flatMap_append, ← h.sent_eq, flatMap_singleton, h.queue_eq]
    have hdeliver := deliver_congr h.self_eq h.socket_eq h.listeners_eq
    unfold Run.op processQueue
    -- an empty queue is not processed, and has nothing to send
    by_cases hq : r.broadcaster.queue = []
    · rw [if_pos hq]
      refine ⟨h.self_eq, h.socket_eq, h.listeners_eq, h.max_eq, hq, ?_, ?_⟩
      · rw [hsent, hq]
        rfl
      · rw [hcalls]
        exact h.calls_eq
    · rw [if_neg hq]
      refine ⟨h.self_eq, h.socket_eq, h.listeners_eq, h.max_eq, rfl, ?_, ?_⟩
      · rw [hsent, ← hdeliver]
      · rw [hcalls]
        exact h.calls_eq

theorem run_inv (b : PlayerBroadcaster) (ops : List Op) : (b.run ops).Inv b := by
  unfold run
  induction ops using reverseRecOn with
  | nil => exact ⟨rfl, rfl, rfl, rfl, rfl, rfl, rfl⟩
  | append_singleton ops op ih =>
    rw [foldl_append]
    exact ih.op op

/-- What somebody is to receive: all that is addressed to him in order and at most once, everything that
may not be skipped, and the last in each batch. What is still in the queue counts as his. -/
structure Broadcasts (b : PlayerBroadcaster) (r : Run) (x : Nat) : Prop where
  order : (received x r.sent ++ r.broadcaster.queue.filter (b.isAddressee x)).Sublist
    ((r.batches.flatten ++ r.batch).filter (b.isAddressee x))
  once : (received x r.sent ++ r.broadcaster.queue.filter (b.isAddressee x)).Nodup
  complete : ∀ d ∈ r.batches.flatten, skippable d = false → b.isAddressee x d → (x, d) ∈ r.sent
  last : ∀ batch ∈ r.batches, ∀ d ∈ (batch.filter (b.isAddressee x)).getLast?, (x, d) ∈ r.sent

/-- A listener receives what was kept of each batch for him. -/
theorem received_run (ops : List Op) (x : Nat) : received x (b.run ops).sent =
    (b.run ops).batches.flatMap fun batch => (b.kept batch).filter (b.isAddressee x) := by
  rw [(run_inv b ops).sent_eq]
  generalize (b.run ops).batches = batches
  induction batches with
  | nil => rfl
  | cons batch batches ih =>
    rw [flatMap_cons, received_append, ih, received_flatMap, flatMap_cons]

theorem nodup_run (b : PlayerBroadcaster) (ops : List Op) : ((b.run ops).batches.flatten ++ (b.run ops).batch).Nodup := by
  refine List.Nodup.of_map (·.call) ?_
  rw [(run_inv b ops).calls_eq]
  exact nodup_range

theorem nodup_batches (ops : List Op) : (b.run ops).batches.flatten.Nodup :=
  (sublist_append_left _ _).nodup (nodup_run b ops)

/-- Two batches have no call in common. -/
theorem batch_eq {ops : List Op} {batch batch' : List BroadcastData}
    (h : batch ∈ (b.run ops).batches) (h' : batch' ∈ (b.run ops).batches) {d : BroadcastData}
    (hd : d ∈ batch) (hd' : d ∈ batch') : batch = batch' := by
  have hdisjoint : (b.run ops).batches.Pairwise List.Disjoint :=
    (nodup_flatten.1 (nodup_batches ops)).2
  have hsymm : Std.Symm fun l l' : List BroadcastData => l.Disjoint l' := ⟨fun _ _ h => h.symm⟩
  by_contra hne
  exact hdisjoint.forall h h' hne hd hd'

theorem kept_sublist (batch : List BroadcastData) (x : Nat) :
    ((b.kept batch).filter (b.isAddressee x)).Sublist (batch.filter (b.isAddressee x)) :=
  (squeezeAll_sublist batch).filter _

/-- In the order of the calls. -/
theorem run_order (ops : List Op) (x : Nat) :
    (received x (b.run ops).sent ++ (b.run ops).broadcaster.queue.filter (b.isAddressee x)).Sublist
      (((b.run ops).batches.flatten ++ (b.run ops).batch).filter (b.isAddressee x)) := by
  rw [received_run, (run_inv b ops).queue_eq, filter_append]
  refine List.Sublist.append ?_ (kept_sublist _ x)
  generalize (b.run ops).batches = batches
  induction batches with
  | nil => exact List.Sublist.slnil
  | cons batch batches ih =>
    rw [flatMap_cons, flatten_cons, filter_append]
    exact (kept_sublist batch x).append ih

theorem mem_sent {ops : List Op} {x : Nat} {d : BroadcastData} : (x, d) ∈ (b.run ops).sent ↔
    ∃ batch ∈ (b.run ops).batches, d ∈ (b.kept batch).filter (b.isAddressee x) := by
  rw [← mem_received, received_run, mem_flatMap]

/-- Nothing that may not be skipped is left out. -/
theorem run_complete {ops : List Op} {x : Nat} {d : BroadcastData}
    (hd : d ∈ (b.run ops).batches.flatten) (hskip : skippable d = false) (hx : b.isAddressee x d) :
    (x, d) ∈ (b.run ops).sent := by
  obtain ⟨batch, hbatch, hd⟩ := mem_flatten.1 hd
  -- only packets that may be skipped are squeezed out
  have hfilter : (b.kept batch).filter (fun d => !skippable d) = batch.filter fun d => !skippable d :=
    filter_squeezeAll (fun a ha => by simpa using ha) batch
  have hkept : d ∈ (b.kept batch).filter fun d => !skippable d := by
    rw [hfilter]
    exact mem_filter.2 ⟨hd, by simp [hskip]⟩
  exact mem_sent.2 ⟨batch, hbatch, mem_filter.2 ⟨(mem_filter.1 hkept).1, hx⟩⟩

/-- The last element of a list is the last of any part of it that has it. -/
theorem getLast?_sublist {l l' : List BroadcastData} (hsub : l'.Sublist l) (hl : l.Nodup)
    {d : BroadcastData} (hd : l.getLast? = some d) (hmem : d ∈ l') : l'.getLast? = some d := by
  obtain ⟨m, rfl⟩ := getLast?_eq_some_iff.1 hd
  obtain ⟨l₁, l₂, rfl, h₁, h₂⟩ := sublist_append_iff.1 hsub
  rcases sublist_singleton.1 h₂ with rfl | rfl
  · rw [append_nil] at hmem
    exact absurd rfl ((nodup_append.1 hl).2.2 d (h₁.subset hmem) d (by simp))
  · rw [getLast?_concat]

theorem last_iff {ops : List Op} {batch : List BroadcastData} (hbatch : batch ∈ (b.run ops).batches)
    (x : Nat) : (∀ d ∈ (batch.filter (b.isAddressee x)).getLast?, (x, d) ∈ (b.run ops).sent) ↔
      KeepsLast b.maxQueueSize skippable (b.isAddressee x) batch := by
  have hnodup : batch.Nodup := (nodup_flatten.1 (nodup_batches ops)).1 batch hbatch
  rw [← getLast?_squeezeAll_iff hnodup]
  constructor
  · intro h
    cases hlast : (batch.filter (b.isAddressee x)).getLast? with
    | none =>
      rw [getLast?_eq_none_iff] at hlast ⊢
      have hsub := kept_sublist (b := b) batch x
      rw [hlast] at hsub
      exact sublist_nil.1 hsub
    | some d =>
      obtain ⟨batch', hbatch', hd⟩ := mem_sent.1 (h d hlast)
      have hd₁ : d ∈ batch := (mem_filter.1 (mem_of_getLast? hlast)).1
      have hd₂ : d ∈ batch' := (mem_filter.1 ((kept_sublist batch' x).subset hd)).1
      rw [← batch_eq hbatch hbatch' hd₁ hd₂] at hd
      exact getLast?_sublist (kept_sublist batch x) (hnodup.filter _) hlast hd
  · intro h d hd
    rw [← h] at hd
    exact mem_sent.2 ⟨batch, hbatch, mem_of_getLast? hd⟩

/-- Whatever was called, and whatever the queue can hold: everybody receives what he is to receive
unless, in some batch, a packet for somebody is replaced by one that is not for him, and he is an
addressee of none that comes later in the batch. -/
theorem broadcasts_iff (b : PlayerBroadcaster) (ops : List Op) :
    (∀ x, Broadcasts b (b.run ops) x) ↔ ∀ batch ∈ (b.run ops).batches, ∀ x,
      KeepsLast b.maxQueueSize skippable (b.isAddressee x) batch := by
  constructor
  · intro h batch hbatch x
    exact (last_iff hbatch x).1 ((h x).last batch hbatch)
  · intro h x
    exact {
      order := run_order ops x
      once := (run_order ops x).nodup ((nodup_run b ops).filter _)
      complete := fun d hd => run_complete hd
      last := fun batch hbatch => (last_iff hbatch x).2 (h batch hbatch x) }

/-- A player with the listeners 2 and 3, and room for one packet -/
def twoListeners : PlayerBroadcaster where
  self := 1
  socket := true
  listeners := ⟨[(2, true), (3, true)], by decide⟩
  self_out := by decide
  maxQueueSize := 1
  maxQueueSize_pos := by decide
  queue := []
  lastUpdatePackets := 0
  calls := 0

/-- A packet for 3 is replaced by one for 2. -/
theorem last_not_received : ¬ ∀ (b : PlayerBroadcaster) (ops : List Op) (x : Nat),
    Broadcasts b (b.run ops) x := by
  intro h
  have hlast := (h twoListeners
    [.queuePacket ⟨0x0B5, []⟩ false 2, .queuePacket ⟨0x0B7, []⟩ false 3, .processQueue] 3).last
    [⟨⟨0x0B5, []⟩, false, 2, 0⟩, ⟨⟨0x0B7, []⟩, false, 3, 1⟩] (by decide)
  have hsent := hlast ⟨⟨0x0B5, []⟩, false, 2, 0⟩ (by decide)
  revert hsent
  decide

end PlayerBroadcaster

end Windrunner
