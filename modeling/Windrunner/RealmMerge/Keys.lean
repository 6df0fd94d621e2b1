import Mathlib.Data.List.Sort

/-!
# New keys for the rows of a merged database

The merge tool gives the rows of the second database keys that the first one does not have. Keys of
the same kind (characters, items, guilds and so on) are replaced in one of two ways. The fast method
adds the greatest key of both databases to every key of the second. Where that does not fit into
31 bits, the slow method replaces the keys that are taken, one by one, by the next that nobody has:
`UniqueKeyData` keeps count of them.
-/

namespace Windrunner

namespace RealmMerge

def int32Max : Nat := 2147483647

/-- `++` of a 32-bit counter -/
def increment (counter : Nat) : Nat := (counter + 1) % 4294967296

structure UniqueKeyData where
  existingKeys1 : List Nat := []
  existingKeys2 : List Nat := []
  replacedKeys : List (Nat × Nat) := []
  counter : Nat := 0
  deriving DecidableEq, Repr

namespace UniqueKeyData

variable (d : UniqueKeyData)

def taken (key : Nat) : Bool := key ∈ d.existingKeys1 || key ∈ d.existingKeys2

/-- The search for a key that nobody has, as long as it takes at most `n` steps -/
def search : Nat → Nat → Option Nat
  | 0, _ => none
  | n + 1, counter => if d.taken counter then search n (increment counter) else some counter

/-- `ReplaceKeyIfNeeded`. After 2^32 steps a search has seen every key and does not end. -/
def replaceKeyIfNeeded (key : Nat) : Option (UniqueKeyData × Nat × Bool) :=
  match d.replacedKeys.find? fun r => r.1 = key with
  | some r => some (d, r.2, false)
  | none =>
    if key ∉ d.existingKeys1 then some (d, key, false)
    else
      match d.search 4294967296 (increment d.counter) with
      | none => none
      | some counter =>
        some ({ d with replacedKeys := (key, counter) :: d.replacedKeys, counter := counter },
          counter, true)

/-- The slow method goes through the keys of the second database; the replacements that it makes,
each with the key that is replaced. -/
def slowMethod : UniqueKeyData → List Nat → Option (List (Nat × Nat))
  | _, [] => some []
  | d, key :: keys =>
    match d.replaceKeyIfNeeded key with
    | none => none
    | some (d, new, replaced) =>
      match slowMethod d keys with
      | none => none
      | some rest => some (if replaced then (key, new) :: rest else rest)

end UniqueKeyData

/-- The keys that a query returns, as a `std::set` holds them -/
def existingKeys (ids : List Nat) : List Nat := ids.dedup.insertionSort (· ≤ ·)

/-- `*keys.rbegin()` -/
def rbegin (keys : List Nat) : Nat := keys.getLastD 0

inductive Method where
  /-- One of the databases has no such keys. -/
  | none
  | fast (offset : Nat)
  /-- The keys that are replaced, each with its replacement, in this order -/
  | slow (replacements : List (Nat × Nat))
  deriving DecidableEq, Repr

/-- Whether the greatest new key of the fast method is small enough -/
def fitsFast (keys1 keys2 : List Nat) : Bool :=
  max (rbegin keys1) (rbegin keys2) + rbegin keys2 < int32Max

/-- How the keys of one kind are replaced; nothing when there are too many of them, or when a
search of the slow method does not end. -/
def method (ids1 ids2 : List Nat) : Option Method :=
  let keys1 := existingKeys ids1
  let keys2 := existingKeys ids2
  if int32Max < keys1.length + keys2.length then Option.none
  else if keys1 = [] ∨ keys2 = [] then some .none
  else if fitsFast keys1 keys2 then some (.fast (max (rbegin keys1) (rbegin keys2)))
  else
    (UniqueKeyData.slowMethod { existingKeys1 := keys1, existingKeys2 := keys2 } keys2).map .slow

/-- The fields of `UpdateAutoIncrementFields`, by their tables -/
inductive AutoIncrementField where
  | arenaStatsSingle | bountyQuestTargets | bugreport | bugreports | charactersTotalMoney
  | characterDeletedItems | characterEggLoot | characterItemLogs | characterTicket | guildBankLog
  | guildBankTabs | logsWarden | storeRacechange

/-- Where the column ends: four of them are signed. -/
def AutoIncrementField.bound : AutoIncrementField → Nat
  | .bugreport | .bugreports | .guildBankLog | .guildBankTabs => 2147483648
  | _ => 4294967296

/-- `SELECT MAX`, where no row counts as 0 -/
def selectMax (ids : List Nat) : Nat := ids.foldr max 0

/-- What `UpdateAutoIncrementField` adds to the field -/
def autoIncrementOffset (ids1 ids2 : List Nat) : Nat :=
  if selectMax ids1 < selectMax ids2 then selectMax ids2 else selectMax ids1

end RealmMerge

end Windrunner
