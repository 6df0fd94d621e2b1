import Mathlib.Data.UInt
import Windrunner.Lib.Find

/-!
# What packets are written with

`ByteBuffer` appends numbers with the lowest byte first and texts with a zero after them.
`appendPackGUID` appends a guid as a mask and those of its bytes that are not zero.

* `getAll_writeAll`: what is read from a packet is what was written.
* `getAll_cut`: what is read from a packet whose end is missing.
-/

namespace Windrunner

/-- The low `n` bytes of a number, the lowest first. -/
def littleEndian : Nat → Nat → List UInt8
  | 0, _ => []
  | n + 1, x => UInt8.ofNat x :: littleEndian n (x / 256)

/-- A text with the zero that ends it. -/
def cString (s : String) : List UInt8 := s.toUTF8.data.toList ++ [0]

/-- The number that such bytes are -/
def ofLittleEndian : List UInt8 → Nat
  | [] => 0
  | b :: bs => b.toNat + 256 * ofLittleEndian bs

@[simp] theorem length_littleEndian (n x : Nat) : (littleEndian n x).length = n := by
  induction n generalizing x with
  | zero => rfl
  | succ n ih => rw [littleEndian, List.length_cons, ih]

@[simp] theorem length_cString (s : String) : (cString s).length = s.utf8ByteSize + 1 := by
  unfold cString
  rw [List.length_append]
  rfl

/-- What is read is what was written, as far as there was room for it. -/
@[simp] theorem ofLittleEndian_littleEndian (n x : Nat) :
    ofLittleEndian (littleEndian n x) = x % 256 ^ n := by
  induction n generalizing x with
  | zero => simp [littleEndian, ofLittleEndian, Nat.mod_one]
  | succ n ih =>
    have hbyte : (UInt8.ofNat x).toNat = x % 256 := by simp
    rw [littleEndian, ofLittleEndian, ih, hbyte, Nat.pow_succ', Nat.mod_mul]

/-! ## Guids -/

/-- The loop of `appendPackGUID` from byte `i` on: the mask, and the bytes that are not zero -/
def packFrom : Nat → Nat → UInt64 → UInt8 × List UInt8
  | 0, _, _ => (0, [])
  | n + 1, i, guid =>
    if guid = 0 then (0, [])
    else
      let rest := packFrom n (i + 1) (guid >>> 8)
      if guid &&& 0xFF ≠ 0 then (rest.1 ||| 1 <<< UInt8.ofNat i, (guid &&& 0xFF).toUInt8 :: rest.2)
      else rest

def appendPackGUID (guid : UInt64) : List UInt8 :=
  (packFrom 8 0 guid).1 :: (packFrom 8 0 guid).2

example : appendPackGUID 0x0040000000001200 = [0x42, 0x12, 0x40] := by decide

/-! ## Reading -/

open List

structure ByteBuffer where
  storage : List UInt8
  rpos : Nat
  wpos : Nat

namespace ByteBuffer

/-- What a packet is put together from. A number has `2 ^ n` bytes, its sign in the highest bit. -/
inductive Value where
  | bool (x : Bool)
  | number (n : Nat) (x : BitVec (8 * 2 ^ n))
  | text (s : List UInt8)

/-- The type of the variable that a value is read into -/
inductive Kind where
  | bool | number (n : Nat) | text
deriving DecidableEq

/-- `none` where the assertion stops the server -/
def append (b : ByteBuffer) (src : List UInt8) : Option ByteBuffer :=
  if src = [] then some b
  else if b.storage.length < 10000000 then
    let wpos := b.wpos + src.length
    let storage := b.storage ++ replicate (wpos - b.storage.length) 0
    some { b with storage := storage.take b.wpos ++ src ++ storage.drop wpos, wpos := wpos }
  else none

/-- `operator<<` -/
def write (b : ByteBuffer) : Value → Option ByteBuffer
  | .bool x => b.append [if x then 1 else 0]
  | .number n x => b.append (littleEndian (2 ^ n) x.toNat)
  | .text s => (b.append s).bind (·.append [0])

/-- `none` where it throws -/
def read (b : ByteBuffer) (len : Nat) : Option (List UInt8 × ByteBuffer) :=
  if b.rpos + len > b.storage.length then none
  else some ((b.storage.drop b.rpos).take len, { b with rpos := b.rpos + len })

/-- `operator>>`, into a variable that is empty before it when it is a text -/
def get (b : ByteBuffer) : Kind → Option (Value × ByteBuffer)
  -- a `char` has a sign
  | .bool => (b.read 1).map fun (x, b) =>
    (.bool (0 < ofLittleEndian x ∧ ofLittleEndian x < 128), b)
  | .number n => (b.read (2 ^ n)).map fun (x, b) => (.number n (BitVec.ofNat _ (ofLittleEndian x)), b)
  | .text =>
    if b.rpos < b.storage.length then
      (Lib.findFrom b.storage 0 b.rpos).map fun e =>
        (.text ((b.storage.drop b.rpos).take (e - b.rpos)), { b with rpos := e + 1 })
    else some (.text [], b)

def getAll (b : ByteBuffer) : List Kind → Option (List Value)
  | [] => some []
  | k :: ks => (b.get k).bind fun r => (r.2.getAll ks).map (r.1 :: ·)

def Value.kind : Value → Kind
  | bool _ => .bool
  | number n _ => .number n
  | text _ => .text

def Value.bytes : Value → List UInt8
  | bool x => [if x then 1 else 0]
  | number n x => littleEndian (2 ^ n) x.toNat
  | text s => s ++ [0]

theorem Value.length_bytes_pos (v : Value) : 0 < v.bytes.length := by
  cases v with
  | bool x => exact Nat.one_pos
  | number n x =>
    rw [bytes, length_littleEndian]
    exact Nat.two_pow_pos n
  | text s =>
    rw [bytes, List.length_append]
    exact Nat.succ_pos _

theorem length_number (n : Nat) (x : BitVec (8 * 2 ^ n)) :
    (Value.number n x).bytes.length = 2 ^ n := length_littleEndian _ _

variable {p q : List UInt8} {r w : Nat} {b : ByteBuffer} {v : Value} {vs : List Value}

/-- At the end of what is written `append` adds and goes on. -/
theorem append_end {src : List UInt8} (h : append ⟨p, r, p.length⟩ src = some b) :
    b = ⟨p ++ src, r, (p ++ src).length⟩ := by
  unfold append at h
  split at h
  · rename_i hnil
    simp [← Option.some.inj h, hnil]
  · split at h
    · rw [← Option.some.inj h]
      simp
    · cases h

theorem write_end (h : write ⟨p, r, p.length⟩ v = some b) :
    b = ⟨p ++ v.bytes, r, (p ++ v.bytes).length⟩ := by
  cases v with
  | text s =>
    obtain ⟨b', htext, hzero⟩ := Option.bind_eq_some_iff.1 h
    rw [append_end htext] at hzero
    rw [append_end hzero, append_assoc]
    rfl
  | _ => exact append_end h

/-- So does a list of values. -/
theorem writeAll_end (h : vs.foldlM write ⟨p, r, p.length⟩ = some b) :
    b = ⟨p ++ vs.flatMap Value.bytes, r, (p ++ vs.flatMap Value.bytes).length⟩ := by
  induction vs generalizing p with
  | nil => simpa using (Option.some.inj h).symm
  | cons v vs ih =>
    obtain ⟨b', hv, hvs⟩ := Option.bind_eq_some_iff.1 h
    rw [write_end hv] at hvs
    rw [ih hvs, flatMap_cons, append_assoc]

/-- A whole value is read back, and the position is behind it. -/
theorem get_whole (hv : ∀ s, v = .text s → 0 ∉ s) :
    get ⟨p ++ v.bytes ++ q, p.length, w⟩ v.kind =
      some (v, ⟨p ++ v.bytes ++ q, (p ++ v.bytes).length, w⟩) := by
  have hread : read ⟨p ++ v.bytes ++ q, p.length, w⟩ v.bytes.length =
      some (v.bytes, ⟨p ++ v.bytes ++ q, (p ++ v.bytes).length, w⟩) := by
    simp [read, append_assoc]
  cases v with
  | bool x =>
    rw [Value.kind, get, show 1 = (Value.bool x).bytes.length from rfl, hread]
    cases x <;> rfl
  | number k x =>
    have hlt : x.toNat < 256 ^ 2 ^ k := by
      rw [show 256 = 2 ^ 8 from rfl, ← Nat.pow_mul]
      exact x.isLt
    rw [length_number] at hread
    rw [Value.kind, get, hread]
    simp [Value.bytes, Nat.mod_eq_of_lt hlt]
  | text s =>
    have hfind := Lib.findFrom_append (a := p) (b := q) (hv s rfl)
    simp only [Value.kind, get, Value.bytes, append_assoc, singleton_append] at hfind ⊢
    rw [if_pos (by simp only [length_append, length_cons]; omega), hfind]
    simp [Nat.add_assoc]

/-- A value that is cut short is not read, but for a text of which nothing is there. -/
theorem get_short {m : Nat} (hv : ∀ s, v = .text s → 0 ∉ s) (hm : m < v.bytes.length) :
    get ⟨p ++ v.bytes.take m, p.length, w⟩ v.kind =
      if m = 0 ∧ v.kind = .text then some (.text [], ⟨p, p.length, w⟩) else none := by
  have hshort : read ⟨p ++ v.bytes.take m, p.length, w⟩ v.bytes.length = none := by
    simp [read, hm]
  cases v with
  | bool x =>
    rw [Value.kind, get, show 1 = (Value.bool x).bytes.length from rfl, hshort, if_neg (by simp)]
    rfl
  | number k x =>
    rw [length_number] at hshort
    rw [Value.kind, get, hshort, if_neg (by simp)]
    rfl
  | text s =>
    have htake : (s ++ [0]).take m = s.take m :=
      take_append_of_le_length (by simpa [Value.bytes, Nat.lt_succ_iff] using hm)
    have hnone : Lib.findFrom (p ++ s.take m) 0 p.length = none := by
      rw [Lib.findFrom, drop_left, findIdx?_eq_none_iff.2 fun x hx => ?_]
      · rfl
      · simpa using fun h0 : x = 0 => hv s rfl (h0 ▸ mem_of_mem_take hx)
    rw [Value.kind, get, Value.bytes, htake, hnone]
    rw [Value.bytes, length_append, length_singleton] at hm
    cases m with
    | zero => simp
    | succ m =>
      rw [if_pos (by simp; omega), if_neg (by simp)]
      rfl

/-- The values in front are read one by one. -/
theorem getAll_whole {us : List Value} (hus : ∀ s, .text s ∈ us → 0 ∉ s) (ks : List Kind) :
    getAll ⟨p ++ us.flatMap Value.bytes ++ q, p.length, w⟩ (us.map Value.kind ++ ks) =
      (getAll ⟨p ++ us.flatMap Value.bytes ++ q, (p ++ us.flatMap Value.bytes).length, w⟩ ks).map
        (us ++ ·) := by
  induction us generalizing p with
  | nil => simp
  | cons u us ih =>
    have hu := get_whole (p := p) (q := us.flatMap Value.bytes ++ q) (w := w)
      fun s hs => hus s (hs ▸ mem_cons_self)
    have hrest := ih (p := p ++ u.bytes) fun s hs => hus s (mem_cons_of_mem u hs)
    simp only [append_assoc, flatMap_cons, map_cons, cons_append, getAll] at hu hrest ⊢
    rw [hu, Option.bind_some, hrest, Option.map_map]
    rfl

/-- At the end only empty texts are read. -/
theorem getAll_end (hvs : ∀ s, .text s ∈ vs → 0 ∉ s) :
    getAll ⟨p, p.length, w⟩ (vs.map Value.kind) =
      if ∀ v ∈ vs, v.kind = .text then some (vs.map fun _ => .text []) else none := by
  induction vs with
  | nil => rfl
  | cons v vs ih =>
    have hv := get_short (p := p) (w := w) (fun s hs => hvs s (hs ▸ mem_cons_self))
      v.length_bytes_pos
    rw [take_zero, append_nil] at hv
    rw [map_cons, getAll, hv]
    by_cases hk : v.kind = .text
    · rw [if_pos ⟨rfl, hk⟩, Option.bind_some, ih fun s hs => hvs s (mem_cons_of_mem v hs)]
      simp only [forall_mem_cons, hk, true_and]
      split <;> rfl
    · simp [hk]

/-- A packet that is read as it was written gives what was written. -/
theorem getAll_writeAll (hvs : ∀ s, .text s ∈ vs → 0 ∉ s) (h : vs.foldlM write ⟨[], 0, 0⟩ = some b) :
    b.getAll (vs.map Value.kind) = some vs := by
  have hwhole := getAll_whole (p := []) (q := []) (w := b.wpos) hvs []
  rw [writeAll_end (p := []) h] at hwhole ⊢
  simpa [getAll] using hwhole

theorem greeting_read : getAll ⟨[72, 105, 0, 1, 2], 0, 5⟩ [.text, .number 1] =
    some [.text [72, 105], .number 1 513] :=
  @getAll_writeAll _ [.text [72, 105], .number 1 513] (by simp) rfl

/-- One that is cut in `v` or right before it is not read, except where only texts are cut off, which
are empty then. -/
theorem getAll_cut {us ws : List Value} {m : Nat} (hm : m < v.bytes.length)
    (hvs : ∀ s, .text s ∈ us ++ v :: ws → 0 ∉ s)
    (h : (us ++ v :: ws).foldlM write ⟨[], 0, 0⟩ = some b) :
    getAll { b with storage := b.storage.take ((us.flatMap Value.bytes).length + m) }
        ((us ++ v :: ws).map Value.kind) =
      if m = 0 ∧ ∀ u ∈ v :: ws, u.kind = .text then
        some (us ++ (v :: ws).map fun _ => .text []) else none := by
  have hcut : ((us ++ v :: ws).flatMap Value.bytes).take ((us.flatMap Value.bytes).length + m) =
      us.flatMap Value.bytes ++ v.bytes.take m := by
    rw [flatMap_append, take_length_add_append, flatMap_cons, take_append_of_le_length (by omega)]
  have hwhole := getAll_whole (p := []) (q := v.bytes.take m) (w := b.wpos)
    (fun s hs => hvs s (mem_append_left _ hs)) ((v :: ws).map Value.kind)
  rw [writeAll_end (p := []) h, nil_append] at hwhole ⊢
  rw [hcut, map_append]
  refine hwhole.trans ?_
  rw [map_cons, getAll, nil_append, get_short (fun s hs => hvs s (by simp [hs])) hm]
  by_cases hv : m = 0 ∧ v.kind = .text
  · rw [if_pos hv, Option.bind_some,
      getAll_end fun s hs => hvs s (mem_append_right _ (mem_cons_of_mem v hs))]
    simp only [forall_mem_cons, hv, true_and]
    split <;> rfl
  · rw [if_neg hv, if_neg fun h => hv ⟨h.1, h.2 v mem_cons_self⟩]
    rfl

theorem greeting_cut : getAll ⟨[1, 2], 0, 5⟩ [.number 1, .text] = some [.number 1 513, .text []] :=
  @getAll_cut _ (.text [72, 105]) [.number 1 513] [] 0 (by decide) (by simp) rfl

end ByteBuffer

end Windrunner
