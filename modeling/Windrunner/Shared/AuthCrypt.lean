import Mathlib.Data.UInt

/-!
# The cipher of the packet headers

Each direction has a state of its own, an index into the key and the last byte of the ciphertext, which
goes on from message to message.

* `CryptKey`: a key is never empty, as `SetKey` sees to it.
* `encryptByte`, `decryptByte`: the turns of the loops. A turn fails when its index is not within the
  key. `decryptByte_encryptByte`: the one undoes the other, and they leave the same state.
* `decrypt_encrypt`: so does a peer with all messages, when it starts in step.
-/

namespace Windrunner

/-- A key after `SetKey` -/
structure CryptKey where
  bytes : List UInt8
  ne_nil : bytes ≠ []
  deriving DecidableEq

def setKey (key : List UInt8) : CryptKey :=
  if h : key = [] then ⟨[0], List.cons_ne_nil _ _⟩ else ⟨key, h⟩

/-- `_send_i` and `_send_j`, or `_recv_i` and `_recv_j` -/
structure CryptState where
  i : UInt8 := 0
  j : UInt8 := 0
  deriving DecidableEq, Repr

structure AuthCrypt where
  key : CryptKey
  send : CryptState := {}
  recv : CryptState := {}
  initialized : Bool := false
  deriving DecidableEq

/-- Something is done with each element, and the state goes on to the next. -/
def accum {σ α β : Type} (f : σ → α → Option (σ × β)) : σ → List α → Option (σ × List β)
  | s, [] => some (s, [])
  | s, a :: l =>
    (f s a).bind fun (s, b) => (accum f s l).map fun (s, l) => (s, b :: l)

/-- A turn of either loop. Of a byte of the key comes the next `j`, and the byte that is written. -/
def cryptByte (key : CryptKey) (s : CryptState) (combine : UInt8 → UInt8 × UInt8) :
    Option (CryptState × UInt8) :=
  let i := UInt8.ofNat (s.i.toNat % key.bytes.length)
  key.bytes[i.toNat]?.map fun k => (⟨i + 1, (combine k).1⟩, (combine k).2)

/-- A turn of the loop of `EncryptSend` -/
def encryptByte (key : CryptKey) (s : CryptState) (b : UInt8) : Option (CryptState × UInt8) :=
  cryptByte key s fun k =>
    let x := (b ^^^ k) + s.j
    (x, x)

/-- A turn of the loop of `DecryptRecv` -/
def decryptByte (key : CryptKey) (s : CryptState) (b : UInt8) : Option (CryptState × UInt8) :=
  cryptByte key s fun k => (b, (b - s.j) ^^^ k)

/-- The first `len` bytes; less than these are left as they are. -/
def cryptHeader (turn : CryptState → UInt8 → Option (CryptState × UInt8)) (len : Nat)
    (s : CryptState) (data : List UInt8) : Option (CryptState × List UInt8) :=
  if data.length < len then some (s, data)
  else (accum turn s (data.take len)).map fun (s, l) => (s, l ++ data.drop len)

namespace AuthCrypt

def init (c : AuthCrypt) : AuthCrypt := { c with send := {}, recv := {}, initialized := true }

def encrypt (len : Nat) (c : AuthCrypt) (data : List UInt8) : Option (AuthCrypt × List UInt8) :=
  if !c.initialized then some (c, data)
  else (cryptHeader (encryptByte c.key) len c.send data).map fun (send, data) =>
    ({ c with send }, data)

def decrypt (len : Nat) (c : AuthCrypt) (data : List UInt8) : Option (AuthCrypt × List UInt8) :=
  if !c.initialized then some (c, data)
  else (cryptHeader (decryptByte c.key) len c.recv data).map fun (recv, data) =>
    ({ c with recv }, data)

def encryptSend : AuthCrypt → List UInt8 → Option (AuthCrypt × List UInt8) := encrypt 4

def decryptRecv : AuthCrypt → List UInt8 → Option (AuthCrypt × List UInt8) := decrypt 6

/-- What `a` sends is what `b` expects. -/
structure InStep (a b : AuthCrypt) : Prop where
  key : a.key = b.key
  initialized : a.initialized = b.initialized
  state : a.send = b.recv

end AuthCrypt

/-- Two ends of which each step of the one is undone by the other stay in step over a list. -/
theorem accum_undone {σ τ α β : Type} {f : σ → α → Option (σ × β)} {g : τ → β → Option (τ × α)}
    {R : σ → τ → Prop} (h : ∀ s t a, R s t →
      ∃ s' t' b, f s a = some (s', b) ∧ g t b = some (t', a) ∧ R s' t')
    {s : σ} {t : τ} (hR : R s t) (l : List α) : ∃ s' t' l', accum f s l = some (s', l') ∧
      accum g t l' = some (t', l) ∧ R s' t' ∧ l'.length = l.length := by
  induction l generalizing s t with
  | nil => exact ⟨s, t, [], rfl, rfl, hR, rfl⟩
  | cons a l ih =>
    obtain ⟨s₁, t₁, b, hf, hg, hR⟩ := h s t a hR
    obtain ⟨s₂, t₂, l', hfs, hgs, hR, hlen⟩ := ih hR
    exact ⟨s₂, t₂, b :: l', by simp [accum, hf, hfs], by simp [accum, hg, hgs], hR, by simp [hlen]⟩

/-- The index of a turn is within the key. -/
theorem cryptByte_isSome (key : CryptKey) (s : CryptState) :
    ∃ i k, ∀ combine, cryptByte key s combine = some (⟨i, (combine k).1⟩, (combine k).2) := by
  have hlen := List.length_pos_of_ne_nil key.ne_nil
  have hlt : (UInt8.ofNat (s.i.toNat % key.bytes.length)).toNat < key.bytes.length :=
    Nat.lt_of_le_of_lt (by rw [UInt8.toNat_ofNat']; exact Nat.mod_le _ _) (Nat.mod_lt _ hlen)
  exact ⟨_, _, fun combine => by unfold cryptByte; simp only [List.getElem?_eq_getElem hlt]; rfl⟩

/-- A byte that is decrypted at the same place is what it was. -/
theorem decryptByte_encryptByte (key : CryptKey) (s : CryptState) (b : UInt8) :
    ∃ s' x, encryptByte key s b = some (s', x) ∧ decryptByte key s x = some (s', b) := by
  obtain ⟨i, k, hk⟩ := cryptByte_isSome key s
  refine ⟨_, _, hk _, (hk _).trans ?_⟩
  -- the state that is added is taken off, and the key is its own inverse under `xor`
  have hback : ((b ^^^ k) + s.j - s.j) ^^^ k = b := by
    rw [UInt8.add_sub_cancel, UInt8.xor_assoc, UInt8.xor_self, UInt8.xor_zero]
  rw [hback]

theorem cryptHeader_undone (key : CryptKey) (len : Nat) (s : CryptState) (data : List UInt8) :
    ∃ s' data', cryptHeader (encryptByte key) len s data = some (s', data') ∧
      cryptHeader (decryptByte key) len s data' = some (s', data) := by
  unfold cryptHeader
  by_cases hshort : data.length < len
  · -- a message shorter than the header is left alone at both ends
    exact ⟨s, data, if_pos hshort, if_pos hshort⟩
  · obtain ⟨s', t', l, hs, ht, rfl, hlen⟩ := accum_undone (R := Eq) (f := encryptByte key)
      (g := decryptByte key) (fun s t b hst => by
        obtain ⟨s', x, hx, hb⟩ := decryptByte_encryptByte key s b
        exact ⟨s', s', x, hx, hst ▸ hb, rfl⟩) (rfl : s = s) (data.take len)
    rw [List.length_take, Nat.min_eq_left (Nat.le_of_not_lt hshort)] at hlen
    refine ⟨s', l ++ data.drop len, by rw [if_neg hshort, hs]; rfl, ?_⟩
    rw [if_neg (by simp [hlen]), List.take_left' hlen, ht, List.drop_left' hlen]
    simp

/-- A peer that is in step recovers every message, and stays in step. -/
theorem AuthCrypt.decrypt_encrypt {a b : AuthCrypt} (h : a.InStep b) (len : Nat)
    (messages : List (List UInt8)) : ∃ a' b' sent, accum (encrypt len) a messages = some (a', sent) ∧
      accum (decrypt len) b sent = some (b', messages) ∧ a'.InStep b' := by
  obtain ⟨a', b', sent, hsend, hrecv, hstep, -⟩ :=
    accum_undone (f := encrypt len) (g := decrypt len) (R := InStep) (fun a b data h => by
      unfold encrypt decrypt
      rw [← h.initialized, ← h.key, ← h.state]
      by_cases hinit : a.initialized = true
      · obtain ⟨s, data', hs, ht⟩ := cryptHeader_undone a.key len a.send data
        exact ⟨{ a with send := s }, { b with recv := s }, data', by simp [hinit, hs],
          by simp [hinit, ht, ← h.key, ← h.initialized], { h with state := rfl }⟩
      · exact ⟨a, b, data, by simp [hinit], by simp [hinit], h⟩) h messages
  exact ⟨a', b', sent, hsend, hrecv, hstep⟩

/-- Two messages with a key of five bytes -/
theorem AuthCrypt.decrypt_encrypt_two : ∃ a' b' sent,
    accum encryptSend ({ key := setKey [3, 1, 4, 1, 5] } : AuthCrypt).init
        [[1, 2, 3, 4, 5], [6, 7, 8, 9]] = some (a', sent) ∧
      accum (decrypt 4) ({ key := setKey [3, 1, 4, 1, 5] } : AuthCrypt).init sent =
        some (b', [[1, 2, 3, 4, 5], [6, 7, 8, 9]]) ∧ a'.InStep b' :=
  decrypt_encrypt ⟨rfl, rfl, rfl⟩ 4 _

end Windrunner
