import Mathlib.Data.List.ModifyLast
import Windrunner.Objects.UpdateData

/-!
# What the packets of an update contain

The buffers are the bins of `Lib.pack`: a block goes to the last one, unless that is longer than
`MAX_UNCOMPRESSED_PACKET_SIZE` before the block is written.

* `run_datas`: the buffers and their counts after any calls.
* `send_bodies`: what a client reads in the packets of `Send`.
* `Delivered`: every block is in one packet, in order and undivided, and the guids are in the first.
* `run_delivered`: so it is after any calls, and how long a packet can be and what it says is in it.
-/

namespace Windrunner

open Lib List

namespace UpdateData

/-- Whether a buffer with these blocks takes no other -/
def full (group : List (List UInt8)) : Bool :=
  decide (maxUncompressedPacketSize < group.flatten.length)

/-- The buffer with some blocks -/
def packetOf (group : List (List UInt8)) : UpdatePacket :=
  ⟨group.flatten, UInt32.ofNat group.length⟩

variable {u : UpdateData} {bins : List (List (List UInt8))}

/-- A block goes into the last packet, or a full one is followed by a new one. -/
theorem addUpdateBlock_write (h : u.datas = bins.map packetOf) (bytes : List UInt8) :
    (u.addUpdateBlock.write bytes).datas = (put full bins bytes).map packetOf := by
  have hone : ∀ ps : List UpdatePacket, ∀ p : UpdatePacket,
      ((ps ++ [p]).modifyLast (fun it => { it with blockCount := it.blockCount + 1 })).modifyLast
        (fun it => { it with data := it.data ++ bytes }) =
      ps ++ [⟨p.data ++ bytes, p.blockCount + 1⟩] := by
    intro ps p
    rw [modifyLast_concat, modifyLast_concat]
  unfold write addUpdateBlock
  rcases bins.eq_nil_or_concat' with rfl | ⟨bs, g, rfl⟩
  · rw [map_nil] at h
    simpa [h, packetOf] using hone [] {}
  · rw [map_append, map_singleton] at h
    have hne : bs.map packetOf ++ [packetOf g] ≠ [] := by simp
    have hdata : (packetOf g).data = g.flatten := rfl
    have hsucc : packetOf (g ++ [bytes]) =
        ⟨(packetOf g).data ++ bytes, (packetOf g).blockCount + 1⟩ := by
      simp [packetOf, UInt32.ofNat_add]
    rw [put_append]
    simp only [h, if_neg hne, getLast?_concat, hdata, full, decide_eq_true_eq]
    split_ifs
    · rw [hone]
      simp [packetOf]
    · rw [hone, map_append, map_singleton, hsucc]

theorem blocks_append (calls : List Call) (c : Call) :
    blocks (calls ++ [c]) = blocks calls ++ blocks [c] := filterMap_append

/-- The buffers have the blocks as they were packed. -/
theorem run_datas (calls : List Call) :
    (run calls).datas = (pack full (blocks calls)).map packetOf := by
  induction calls using reverseRecOn with
  | nil => rfl
  | append_singleton calls c ih =>
    have hrun : run (calls ++ [c]) = (run calls).call c := foldl_append
    rw [hrun, blocks_append]
    cases c with
    | block bytes =>
      rw [show blocks [Call.block bytes] = [bytes] from rfl, pack_append]
      exact addUpdateBlock_write ih bytes
    | outOfRange guids =>
      rw [show blocks [Call.outOfRange guids] = [] from rfl, append_nil]
      exact ih

theorem run_guids (calls : List Call) : (run calls).outOfRangeGUIDs = guids calls := by
  induction calls using reverseRecOn with
  | nil => rfl
  | append_singleton calls c ih =>
    have hrun : run (calls ++ [c]) = (run calls).call c := foldl_append
    unfold guids at ih ⊢
    rw [hrun, foldl_append, ← ih]
    cases c <;> rfl

/-! ## What a client reads -/

variable (z : Zlib) (it : Iteration) (hasTransport : Bool)

def outOfRangeBlock (guids : Finset UInt64) : List UInt8 :=
  if guids = ∅ then []
  else updateTypeOutOfRangeObjects :: littleEndian 4 guids.card ++
    (it.list guids).flatMap appendPackGUID

/-- A body with some guids and blocks -/
def frame (guids : Finset UInt64) (group : List (List UInt8)) : List UInt8 :=
  littleEndian 4 (group.length + if guids = ∅ then 0 else 1) ++ [if hasTransport then 1 else 0] ++
    outOfRangeBlock it guids ++ group.flatten

/-- Four bytes hold the count modulo 2 ^ 32. -/
theorem littleEndian_mod (n x : Nat) : littleEndian n (x % 256 ^ n) = littleEndian n x := by
  induction n generalizing x with
  | zero => rfl
  | succ n ih =>
    have hdiv : x % 256 ^ (n + 1) / 256 = x / 256 % 256 ^ n := by
      rw [Nat.pow_succ', Nat.mod_mul_right_div_self]
    have hbyte : UInt8.ofNat (x % 256 ^ (n + 1)) = UInt8.ofNat x := by
      apply UInt8.toNat_inj.1
      have hdvd : 256 ∣ 256 ^ (n + 1) := Dvd.intro_left _ rfl
      simp [Nat.mod_mod_of_dvd x hdvd]
    rw [littleEndian, littleEndian, hdiv, hbyte, ih]

/-- The body of a packet is its count, the guids and the blocks. -/
theorem buildBuffer_packetOf (guids : Finset UInt64) (group : List (List UInt8)) :
    buildBuffer it hasTransport guids (some (packetOf group)) = frame it hasTransport guids group := by
  have hcount : (if guids ≠ ∅ then (packetOf group).blockCount + 1
      else (packetOf group).blockCount).toNat =
      (group.length + if guids = ∅ then 0 else 1) % 256 ^ 4 := by
    by_cases h : guids = ∅ <;> simp [packetOf, h]
  unfold buildBuffer frame outOfRangeBlock
  simp only [Option.elim_some]
  rw [hcount, littleEndian_mod]
  split_ifs <;> simp_all [packetOf]

theorem buildBuffer_none (guids : Finset UInt64) :
    buildBuffer it hasTransport guids none = frame it hasTransport guids [] :=
  buildBuffer_packetOf it hasTransport guids []

/-- Whether it was compressed or not, a client reads the buffer. -/
theorem body_buildPacket {packet : WorldPacket} (h : packet.contents = []) (guids : Finset UInt64)
    (updPacket : Option UpdatePacket) :
    (buildPacket z it hasTransport packet guids updPacket).2.body z =
      buildBuffer it hasTransport guids updPacket := by
  unfold buildPacket
  simp only [z.compress_ne_nil, if_false, h, nil_append]
  split
  · unfold WorldPacket.body
    rw [if_pos rfl, drop_left' (length_littleEndian 4 _), z.lossless]
  · have hplain : smsgUpdateObject ≠ smsgCompressedUpdateObject := by decide
    unfold WorldPacket.body
    rw [if_neg hplain]

/-- The guids and blocks of packets with these blocks -/
def contents (guids : Finset UInt64) :
    List (List (List UInt8)) → List (Finset UInt64 × List (List UInt8))
  | [] => []
  | g :: gs => (guids, g) :: contents ∅ gs

theorem sendFrom_bodies {data : WorldPacket} (h : data.contents = []) (guids : Finset UInt64)
    (bins : List (List (List UInt8))) :
    (sendFrom z it hasTransport data guids (bins.map packetOf)).map (WorldPacket.body z) =
      (contents guids bins).map fun c => frame it hasTransport c.1 c.2 := by
  induction bins generalizing data guids with
  | nil => rfl
  | cons g gs ih =>
    rw [map_cons, sendFrom, contents, map_cons, map_cons, ih rfl,
      body_buildPacket z it hasTransport h, buildBuffer_packetOf]

/-- The blocks of each packet: where there are only guids, a packet without blocks -/
def groups (calls : List Call) : List (List (List UInt8)) :=
  if blocks calls = [] ∧ guids calls ≠ ∅ then [[]] else pack full (blocks calls)

/-- `Send` makes one packet of each group, and the guids are in the first. -/
theorem send_bodies (calls : List Call) :
    ((run calls).send z it hasTransport).1.map (WorldPacket.body z) =
      (contents (guids calls) (groups calls)).map fun c => frame it hasTransport c.1 c.2 := by
  have hnil : (run calls).datas = [] ↔ blocks calls = [] := by
    rw [run_datas, map_eq_nil_iff, pack_eq_nil]
  unfold send groups
  rw [run_guids]
  simp only [hnil]
  by_cases h : blocks calls = [] ∧ guids calls ≠ ∅
  · rw [if_pos h, if_pos h, map_singleton, body_buildPacket z it hasTransport rfl,
      buildBuffer_none]
    rfl
  · rw [if_neg h, if_neg h, run_datas]
    exact sendFrom_bodies z it hasTransport rfl _ _

theorem contents_blocks (guids : Finset UInt64) (bins : List (List (List UInt8))) :
    (contents guids bins).map Prod.snd = bins := by
  induction bins generalizing guids with
  | nil => rfl
  | cons g gs ih => rw [contents, map_cons, ih]

theorem contents_guids (guids : Finset UInt64) (g : List (List UInt8))
    (gs : List (List (List UInt8))) :
    (contents guids (g :: gs)).map Prod.fst = guids :: replicate gs.length ∅ := by
  induction gs generalizing guids g with
  | nil => rfl
  | cons g' gs ih => rw [contents, map_cons, ih, length_cons, replicate_succ]

/-- The groups are the blocks, in their order. -/
theorem groups_flatten (calls : List Call) : (groups calls).flatten = blocks calls := by
  unfold groups
  split_ifs with h
  · rw [h.1]
    rfl
  · exact flatten_pack _

theorem groups_eq_nil {calls : List Call} (h : groups calls = []) : guids calls = ∅ := by
  unfold groups at h
  split_ifs at h with hguids
  rw [pack_eq_nil] at h
  by_contra hne
  exact hguids ⟨h, hne⟩

/-! ## What is right about it -/

/-- The number of blocks that a client is told -/
def countField (body : List UInt8) : Nat := ofLittleEndian (body.take 4)

/-- Each of the packets has some of the blocks, all of them in order, and the first has the guids. The
bodies are a count, a flag, the guids and the blocks, and have `P`. -/
def Delivered (P : List UInt8 → Finset UInt64 → List (List UInt8) → Prop)
    (blocks : List (List UInt8)) (guids : Finset UInt64) (bodies : List (List UInt8)) : Prop :=
  ∃ parts : List (Finset UInt64 × List (List UInt8)),
    (parts.map Prod.snd).flatten = blocks ∧
    (parts = [] ∧ guids = ∅ ∨ ∃ n, parts.map Prod.fst = guids :: replicate n ∅) ∧
    List.Forall₂ (fun body part => P body part.1 part.2 ∧ ∃ count, count.length = 4 ∧
      body = count ++ [if hasTransport then 1 else 0] ++ outOfRangeBlock it part.1 ++ part.2.flatten)
      bodies parts

/-- The count is that of the blocks, and one more for the guids. -/
def Counted (body : List UInt8) (guids : Finset UInt64) (group : List (List UInt8)) : Prop :=
  countField body = group.length + if guids = ∅ then 0 else 1

/-- So long, and as much longer as the last block and that of the guids are -/
def Fits (limit : Nat) (body : List UInt8) (guids : Finset UInt64) (group : List (List UInt8)) : Prop :=
  body.length ≤ limit + (group.getLast?.elim 0 length) + (outOfRangeBlock it guids).length

/-- The count is of the blocks and of the guids as one more. -/
theorem frame_counted (guids : Finset UInt64) (group : List (List UInt8)) :
    countField (frame it hasTransport guids group) =
      (group.length + if guids = ∅ then 0 else 1) % 2 ^ 32 := by
  unfold countField frame
  rw [append_assoc, append_assoc, take_left' (length_littleEndian 4 _),
    ofLittleEndian_littleEndian]
  rfl

theorem length_le_flatten {group : List (List UInt8)} (h : [] ∉ group) :
    group.length ≤ group.flatten.length := by
  induction group with
  | nil => exact Nat.le_refl 0
  | cons b bs ih =>
    rw [mem_cons, not_or] at h
    have hb : 0 < b.length := length_pos_iff.2 (Ne.symm h.1)
    have hbs := ih h.2
    rw [flatten_cons, length_append, length_cons]
    omega

theorem full_eq_false {group : List (List UInt8)} :
    full group = false ↔ group.flatten.length ≤ maxUncompressedPacketSize := by
  rw [full, decide_eq_false_iff_not, Nat.not_lt]

/-- A packet is over the limit by its last block only. -/
theorem mem_groups {calls : List Call} {group : List (List UInt8)} (h : group ∈ groups calls) :
    group.dropLast.flatten.length ≤ maxUncompressedPacketSize := by
  unfold groups at h
  split_ifs at h
  · rw [mem_singleton.1 h]
    simp
  · exact full_eq_false.1 (pack_dropLast rfl h)

/-- A block that is not empty takes room, so that such blocks are few. -/
theorem length_lt {group : List (List UInt8)} (hempty : [] ∉ group)
    (h : group.dropLast.flatten.length ≤ maxUncompressedPacketSize) :
    group.length + 1 < 2 ^ 32 := by
  have hlast : group.dropLast.length ≤ group.dropLast.flatten.length :=
    length_le_flatten fun hm => hempty (mem_of_mem_dropLast hm)
  have hsize : maxUncompressedPacketSize = 32768 := rfl
  rw [length_dropLast] at hlast
  omega

theorem frame_length (guids : Finset UInt64) (group : List (List UInt8)) :
    (frame it hasTransport guids group).length =
      5 + (outOfRangeBlock it guids).length + group.flatten.length := by
  unfold frame
  simp
  omega

theorem flatten_dropLast_getLast (group : List (List UInt8)) : group.flatten.length =
    group.dropLast.flatten.length + (group.getLast?.elim 0 length) := by
  rcases group.eq_nil_or_concat' with rfl | ⟨g, b, rfl⟩
  · rfl
  · simp

/-- What is delivered after any calls. The count has 32 bits, which is enough for blocks that are not
empty; the limit is one for the blocks, to which the count and the flag are added. -/
theorem run_delivered (calls : List Call) :
    Delivered it hasTransport (fun body guids group =>
        countField body = (group.length + if guids = ∅ then 0 else 1) % 2 ^ 32 ∧
        ([] ∉ group → Counted body guids group) ∧
        Fits it (maxUncompressedPacketSize + 5) body guids group)
      (blocks calls) (guids calls)
      (((run calls).send z it hasTransport).1.map (WorldPacket.body z)) := by
  refine ⟨contents (guids calls) (groups calls), ?_, ?_, ?_⟩
  · rw [contents_blocks, groups_flatten]
  · cases h : groups calls with
    | nil => exact .inl ⟨rfl, groups_eq_nil h⟩
    | cons g gs => exact .inr ⟨_, contents_guids _ g gs⟩
  · rw [send_bodies, forall₂_map_left_iff, forall₂_same]
    intro part hpart
    have hmem : part.2 ∈ groups calls := by
      rw [← contents_blocks (guids calls) (groups calls)]
      exact mem_map_of_mem hpart
    have hroom := mem_groups hmem
    have hcount := frame_counted it hasTransport part.1 part.2
    refine ⟨⟨hcount, fun hempty => ?_, ?_⟩, _, length_littleEndian 4 _, rfl⟩
    · have hlt := length_lt hempty hroom
      unfold Counted
      rw [hcount, Nat.mod_eq_of_lt]
      split_ifs <;> omega
    · unfold Fits
      rw [frame_length, flatten_dropLast_getLast]
      omega

/-! ## What it does not keep to

The limit is not one for the whole packet, and the count starts again after `2 ^ 32` blocks. -/

variable {it hasTransport} in
theorem Delivered.single {P : List UInt8 → Finset UInt64 → List (List UInt8) → Prop}
    {blocks : List (List UInt8)} {guids : Finset UInt64} {body : List UInt8}
    (h : Delivered it hasTransport P blocks guids [body]) : P body guids blocks := by
  obtain ⟨parts, hblocks, hguids, hall⟩ := h
  obtain ⟨part, rest, ⟨hP, -⟩, hrest, rfl⟩ := forall₂_cons_left_iff.1 hall
  rw [forall₂_nil_left_iff] at hrest
  subst hrest
  obtain ⟨hnil, -⟩ | ⟨n, hn⟩ := hguids
  · cases hnil
  · rw [map_singleton] at hn
    rw [map_singleton, flatten_singleton] at hblocks
    rwa [← (cons.inj hn).1, ← hblocks]

/-- Calls for blocks alone -/
theorem blocks_map (bs : List (List UInt8)) : blocks (bs.map .block) = bs := by
  unfold blocks
  rw [filterMap_map]
  exact filterMap_some

theorem guids_map (bs : List (List UInt8)) : guids (bs.map .block) = ∅ := by
  unfold guids
  induction bs with
  | nil => rfl
  | cons b bs ih => exact ih

theorem groups_map {bs : List (List UInt8)} (h : bs ≠ []) : groups (bs.map .block) = pack full bs := by
  unfold groups
  rw [blocks_map, if_neg fun hnil => h hnil.1]

theorem groups_empty (n : Nat) :
    groups ((replicate (n + 1) []).map .block) = [replicate (n + 1) []] := by
  rw [groups_map (by simp)]
  induction n with
  | zero => rfl
  | succ n ih =>
    have hroom : full (replicate (n + 1) []) = false := by
      rw [full_eq_false, flatten_replicate_nil]
      exact Nat.zero_le _
    rw [replicate_succ', pack_append, ih, ← nil_append [replicate (n + 1) []],
      put_append, hroom]
    rfl

theorem groups_two {b₁ b₂ : List UInt8} (h : b₁.length ≤ maxUncompressedPacketSize) :
    groups ([b₁, b₂].map .block) = [[b₁, b₂]] := by
  have hroom : full [b₁] = false := by
    rw [full_eq_false, flatten_singleton]
    exact h
  have hpack : pack full [b₁, b₂] = put full ([] ++ [[b₁]]) b₂ := rfl
  rw [groups_map (cons_ne_nil _ _), hpack, put_append, hroom]
  rfl

def plainZlib : Zlib where
  compress buf := 0 :: buf
  bound n := n + 1
  decompress buf := buf.tail
  lossless _ := rfl
  compress_ne_nil _ := cons_ne_nil _ _

def sortedIteration : Iteration where
  list s := s.sort (· ≤ ·)
  nodup s := s.sort_nodup _
  mem_list s _ := s.mem_sort _

/-- Empty blocks are all in one packet. -/
theorem counted_empty {n : Nat} (h : Delivered it hasTransport Counted
    (blocks ((replicate (n + 1) []).map .block)) (guids ((replicate (n + 1) []).map .block))
    (((run ((replicate (n + 1) []).map .block)).send z it hasTransport).1.map
      (WorldPacket.body z))) : n + 1 < 2 ^ 32 := by
  rw [send_bodies, groups_empty, blocks_map] at h
  have hcount := h.single
  unfold Counted at hcount
  rw [frame_counted, length_replicate, guids_map, if_pos rfl, Nat.add_zero] at hcount
  rw [← hcount]
  exact Nat.mod_lt _ (by decide)

/-- A packet may be longer than the limit for its blocks, and its count may be too small. -/
theorem not_fits_not_counted :
    (¬ ∀ (z : Zlib) (it : Iteration) (hasTransport : Bool) (calls : List Call),
      Delivered it hasTransport (Fits it maxUncompressedPacketSize) (blocks calls) (guids calls)
        (((run calls).send z it hasTransport).1.map (WorldPacket.body z))) ∧
    ¬ ∀ (z : Zlib) (it : Iteration) (hasTransport : Bool) (calls : List Call),
      Delivered it hasTransport Counted (blocks calls) (guids calls)
        (((run calls).send z it hasTransport).1.map (WorldPacket.body z)) := by
  constructor
  · intro h
    have hroom : (replicate maxUncompressedPacketSize (0 : UInt8)).length ≤
        maxUncompressedPacketSize := length_replicate.le
    have hall := h plainZlib sortedIteration false
      ([replicate maxUncompressedPacketSize 0, [0]].map .block)
    rw [send_bodies, groups_two hroom, blocks_map] at hall
    have hlong := hall.single
    unfold Fits at hlong
    rw [frame_length] at hlong
    simp at hlong
    omega
  · intro h
    have hlt := counted_empty plainZlib sortedIteration false
      (h plainZlib sortedIteration false ((replicate (2 ^ 32 + 1) []).map .block))
    omega

end UpdateData

end Windrunner
