import Mathlib.Data.Finset.Sort
import Windrunner.Lib.NextFit
import Windrunner.Objects.ByteBuffer

/-!
# Object updates

`UpdateData` gathers what a client is told about the objects around it: blocks, which callers write into
a buffer that `AddUpdateBlockAndGetBuffer` hands out, and the guids of the objects that it no longer sees.
`Send` makes one packet of each buffer, compressed when it is large, the first one with the guids.

* `UpdateData.addUpdateBlock`, `UpdateData.write`: the buffer that is handed out, and what is written to it.
* `UpdateData.buildPacket`, `UpdateData.send`: the packets.
* `WorldPacket.body`: what a client reads, after decompression.
-/

namespace Windrunner

abbrev updateTypeOutOfRangeObjects : UInt8 := 4
abbrev smsgUpdateObject : UInt16 := 0x0A9
abbrev smsgCompressedUpdateObject : UInt16 := 0x1F6

structure WorldPacket where
  opcode : UInt16 := 0
  contents : List UInt8 := []
  deriving DecidableEq, Repr

/-- A compression that loses nothing, as the library's is: `bound` is how much room it asks for -/
structure Zlib where
  compress : List UInt8 → List UInt8
  bound : Nat → Nat
  decompress : List UInt8 → List UInt8
  lossless : ∀ buf, decompress (compress buf) = buf
  compress_ne_nil : ∀ buf, compress buf ≠ []

/-- An order in which a hashed set is gone through. -/
structure Iteration where
  list : Finset UInt64 → List UInt64
  nodup : ∀ s, (list s).Nodup
  mem_list : ∀ s g, g ∈ list s ↔ g ∈ s

/-- What a client reads in an update packet -/
def WorldPacket.body (z : Zlib) (p : WorldPacket) : List UInt8 :=
  if p.opcode = smsgCompressedUpdateObject then z.decompress (p.contents.drop 4) else p.contents

structure UpdatePacket where
  data : List UInt8 := []
  blockCount : UInt32 := 0
  deriving DecidableEq, Repr

structure UpdateData where
  outOfRangeGUIDs : Finset UInt64 := ∅
  datas : List UpdatePacket := []

namespace UpdateData

abbrev maxUncompressedPacketSize : Nat := 0x8000

/-- `AddOutOfRangeGUID` of a set, or of one guid as the set of it -/
def addOutOfRangeGUIDs (u : UpdateData) (guids : Finset UInt64) : UpdateData :=
  { u with outOfRangeGUIDs := u.outOfRangeGUIDs ∪ guids }

/-- `AddUpdateBlockAndGetBuffer`: the buffer is that of the last packet. -/
def addUpdateBlock (u : UpdateData) : UpdateData :=
  let datas := if u.datas = [] then [({} : UpdatePacket)] else u.datas
  let datas := match datas.getLast? with
    | none => datas
    | some it => if maxUncompressedPacketSize < it.data.length then datas ++ [({} : UpdatePacket)] else datas
  { u with datas := datas.modifyLast fun it => { it with blockCount := it.blockCount + 1 } }

/-- What the caller appends to the buffer that it was given -/
def write (u : UpdateData) (bytes : List UInt8) : UpdateData :=
  { u with datas := u.datas.modifyLast fun it => { it with data := it.data ++ bytes } }

section Send

variable (z : Zlib) (it : Iteration) (hasTransport : Bool)

/-- `buf` of `BuildPacket`. The assertion of `append` at 10 million bytes (`ByteBuffer.append`) is left
out: the data of a packet is split far below, and the guids alone would have to be a million. -/
def buildBuffer (guids : Finset UInt64) (updPacket : Option UpdatePacket) : List UInt8 :=
  let blockCount := updPacket.elim 0 fun p => p.blockCount
  littleEndian 4 (if guids ≠ ∅ then blockCount + 1 else blockCount).toNat ++
    [if hasTransport then 1 else 0] ++
    (if guids ≠ ∅ then
      updateTypeOutOfRangeObjects :: littleEndian 4 guids.card ++ (it.list guids).flatMap appendPackGUID
    else []) ++
    updPacket.elim [] fun p => p.data

/-- `BuildPacket`: `false` when the compression fails, with a packet that is not complete -/
def buildPacket (packet : WorldPacket) (guids : Finset UInt64) (updPacket : Option UpdatePacket) :
    Bool × WorldPacket :=
  let buf := buildBuffer it hasTransport guids updPacket
  if 100 < buf.length then
    let dst := z.compress buf
    if dst = [] then
      (false, { packet with
        contents := littleEndian 4 buf.length ++ List.replicate (z.bound buf.length) 0 })
    else (true, ⟨smsgCompressedUpdateObject, littleEndian 4 buf.length ++ dst⟩)
  else (true, ⟨smsgUpdateObject, packet.contents ++ buf⟩)

/-- The loop of `Send`, which uses one packet again and again -/
def sendFrom (data : WorldPacket) (guids : Finset UInt64) : List UpdatePacket → List WorldPacket
  | [] => []
  | p :: datas =>
    let packet := (buildPacket z it hasTransport data guids (some p)).2
    packet :: sendFrom { packet with contents := [] } ∅ datas

/-- `Send`: the packets, and what is kept. The result of `BuildPacket` is not looked at. -/
def send (u : UpdateData) : List WorldPacket × UpdateData :=
  if u.datas = [] ∧ u.outOfRangeGUIDs ≠ ∅ then
    ([(buildPacket z it hasTransport {} u.outOfRangeGUIDs none).2], { u with outOfRangeGUIDs := ∅ })
  else
    (sendFrom z it hasTransport {} u.outOfRangeGUIDs u.datas,
      { u with outOfRangeGUIDs := if u.datas = [] then u.outOfRangeGUIDs else ∅ })

end Send

/-! ## Calls -/

inductive Call where
  /-- `AddUpdateBlockAndGetBuffer`, and one block written to the buffer -/
  | block (bytes : List UInt8)
  | outOfRange (guids : Finset UInt64)

def call (u : UpdateData) : Call → UpdateData
  | .block bytes => u.addUpdateBlock.write bytes
  | .outOfRange guids => u.addOutOfRangeGUIDs guids

def run (calls : List Call) : UpdateData := calls.foldl call {}

/-- The blocks of some calls, in order -/
def blocks (calls : List Call) : List (List UInt8) :=
  calls.filterMap fun | .block bytes => some bytes | .outOfRange _ => none

def guids (calls : List Call) : Finset UInt64 :=
  calls.foldl (fun s c => match c with | .block _ => s | .outOfRange guids => s ∪ guids) ∅

end UpdateData

end Windrunner
