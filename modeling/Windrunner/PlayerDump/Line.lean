import Windrunner.GuildBank.Text
import Windrunner.Lib.Find

/-!
# The lines of a character dump

A dump is a list of `INSERT` statements, one line a row, with the fields in quotes and escaped. When it is
loaded some fields are replaced: `findnth` looks for the place of field `n`, counting quotes.

* `createDumpString`: the line of a row. `mysqlRealEscapeString` escapes a text.
* `findnth`, `getnth`, `changenth`: a search may go on for ever, so it has a number of rounds, and `none` is
  that they are not enough.
-/

namespace Windrunner

open Lib

namespace PlayerDump

inductive DumpTable where
  | characters | characterAction | characterAura | characterHomebind | characterHonorCp
  | characterInventory | characterQueststatus | characterPet | characterReputation | characterSkills
  | characterSpell | characterSpellCooldown | characterTicket | mail | mailItems | petAura | petSpell
  | petSpellCooldown | characterGifts | itemInstance | itemLoot | itemText | characterTransmogs
  deriving DecidableEq, Repr

def DumpTable.name : DumpTable → Text
  | .characters => "characters".toList
  | .characterAction => "character_action".toList
  | .characterAura => "character_aura".toList
  | .characterHomebind => "character_homebind".toList
  | .characterHonorCp => "character_honor_cp".toList
  | .characterInventory => "character_inventory".toList
  | .characterQueststatus => "character_queststatus".toList
  | .characterPet => "character_pet".toList
  | .characterReputation => "character_reputation".toList
  | .characterSkills => "character_skills".toList
  | .characterSpell => "character_spell".toList
  | .characterSpellCooldown => "character_spell_cooldown".toList
  | .characterTicket => "character_ticket".toList
  | .mail => "mail".toList
  | .mailItems => "mail_items".toList
  | .petAura => "pet_aura".toList
  | .petSpell => "pet_spell".toList
  | .petSpellCooldown => "pet_spell_cooldown".toList
  | .characterGifts => "character_gifts".toList
  | .itemInstance => "item_instance".toList
  | .itemLoot => "item_loot".toList
  | .itemText => "item_text".toList
  | .characterTransmogs => "character_transmogs".toList

/-! ## Writing -/

/-- What `mysql_real_escape_string` writes for a character -/
def escapeChar (c : Char) : Text :=
  if c = '\x00' then ['\\', '0']
  else if c = '\n' then ['\\', 'n']
  else if c = '\r' then ['\\', 'r']
  else if c = '\\' then ['\\', '\\']
  else if c = '\'' then ['\\', '\'']
  else if c = '"' then ['\\', '"']
  else if c = '\x1a' then ['\\', 'Z']
  else [c]

def mysqlRealEscapeString (s : Text) : Text := s.flatMap escapeChar

/-- `GetCppString` of a field that is not `NULL`: a C string ends at the first zero -/
def getCppString (value : Text) : Text := value.takeWhile (· ≠ '\x00')

/-- What is written of a field that is not `NULL`, without the quotes -/
def fieldText (value : Text) : Text := mysqlRealEscapeString (getCppString value)

def dumpField : Option Text → Text
  | none => "NULL".toList
  | some value => "'".toList ++ fieldText value ++ "'".toList

/-- The loop of `CreateDumpString` from field `i` on -/
def dumpFields : Nat → List (Option Text) → Text
  | _, [] => []
  | i, f :: fields => (if i ≠ 0 then ", ".toList else []) ++ dumpField f ++ dumpFields (i + 1) fields

def createDumpString (tableName : Text) (row : List (Option Text)) : Text :=
  "INSERT INTO ".toList ++ "`".toList ++ tableName ++ "`".toList ++ " VALUES (".toList ++
    dumpFields 0 row ++ ");".toList

example : createDumpString "mail".toList [some "1".toList, none, some "it's".toList] =
    "INSERT INTO `mail` VALUES ('1', NULL, 'it\\'s');".toList := by decide

/-! ## Searching -/

def npos : Nat := 2 ^ 64 - 1

/-- The search for the end of the first field. It looks again from the same place. -/
def findFirst (str : Text) (s : Nat) : Nat → Option (Option Nat)
  | 0 => none
  | fuel + 1 =>
    match findFrom str '\'' s with
    | none => some none
    | some e => if str[e - 1]? = some '\\' then findFirst str s fuel else some (some e)

/-- The search for the start and the end of the field after the one that ends at `e` -/
def findNext (str : Text) : Nat → Nat → Option (Option (Nat × Nat))
  | _, 0 => none
  | e, fuel + 1 =>
    let s := e + 4
    match findFrom str '\'' s with
    | none => some none
    | some e => if str[e - 1]? = some '\\' then findNext str e fuel else some (some (s, e))

/-- So many fields further -/
def findFields (str : Text) (fuel : Nat) : Nat → Nat × Nat → Option (Option (Nat × Nat))
  | 0, (s, e) => some (some (s, e))
  | n + 1, (_, e) =>
    match findNext str e fuel with
    | none => none
    | some none => some none
    | some (some (s, e)) => findFields str fuel n (s, e)

/-- The positions of field `n`, the first being `1`. When `VALUES ('` is not found, `s` wraps around. -/
def findnth (fuel : Nat) (str : Text) (n : Nat) : Option (Option (Nat × Nat)) :=
  let s := ((findSub str "VALUES ('".toList).getD npos + 9) % 2 ^ 64
  if s = npos then some none
  else
    match findFirst str s fuel with
    | none => none
    | some none => some none
    | some (some e) => findFields str fuel (n - 1) (s, e)

/-- `getnth`: an empty text when the field is not found -/
def getnth (fuel : Nat) (str : Text) (n : Nat) : Option Text :=
  (findnth fuel str n).map fun
    | none => []
    | some (s, e) => (str.drop s).take (e - s)

/-- `changenth`: the result, and the line after it -/
def changenth (fuel : Nat) (str : Text) (n : Nat) (with_ : Text) (insert nonzero : Bool) :
    Option (Bool × Text) :=
  (findnth fuel str n).map fun
    | none => (false, str)
    | some (s, e) =>
      if nonzero ∧ (str.drop s).take (e - s) = "0".toList then (true, str)
      else if !insert then (true, str.take s ++ with_ ++ str.drop e)
      else (true, str.take s ++ with_ ++ str.drop s)

example : changenth 9 "INSERT INTO `mail` VALUES ('1', '23', '4');".toList 2 "7".toList false false =
    some (true, "INSERT INTO `mail` VALUES ('1', '7', '4');".toList) := by decide

end PlayerDump

end Windrunner
