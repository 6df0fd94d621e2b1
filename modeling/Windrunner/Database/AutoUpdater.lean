import Windrunner.GuildBank.Text
import Windrunner.Lib.Window

/-!
# Updates of a database

`ExecuteUpdate` splits the text of an update file into queries and gives them to the database one after
another. The splitter goes through the text once, with a look at the characters before and after.

* `Splitter.step`: the body of the loop, for one character.
* `executeUpdate`: the calls on the database and what is returned.
-/

namespace Windrunner

open Lib

namespace AutoUpdater

inductive StringStatus where
  | none
  | singleQuotes
  | doubleQuotes
  deriving DecidableEq, Repr

inductive CommentScope where
  | none
  | singleline
  | multiline
  deriving DecidableEq, Repr

structure FileMigration where
  hash : Text := []
  name : Text := []
  module : Text := []
  fileData : Text := []

/-- The variables of the loop -/
structure Splitter where
  stringScope : StringStatus := .none
  commentScope : CommentScope := .none
  query : Text := []
  queries : List Text := []
  deriving DecidableEq, Repr

namespace Splitter

/-- A quote in text opens a string, which the same quote closes if no backslash stands before it. -/
def quote (prev : Option Char) (status : StringStatus) (s : Splitter) : Splitter :=
  if s.stringScope = .none then { s with stringScope := status }
  else if s.stringScope = status then
    if prev ≠ some '\\' then { s with stringScope := .none } else s
  else s

/-- The character is added, and the query is complete if it is a semicolon that is in no string. -/
def add (ch : Char) (s : Splitter) : Splitter :=
  let query := s.query ++ [ch]
  if ch = ';' ∧ s.stringScope = .none then { s with queries := s.queries ++ [query], query := [] }
  else { s with query }

/-- The body of the loop -/
def step (prev : Option Char) (ch : Char) (next : Option Char) (s : Splitter) : Splitter :=
  if ch = '\r' ∨ ch = '\n' then
    { s with
      query := if ch = '\n' then s.query ++ [' '] else s.query
      commentScope := if s.commentScope = .singleline then .none else s.commentScope }
  -- leaving the scope of a comment, or entering it
  else if ch = '/' ∧ s.commentScope = .multiline ∧ prev = some '*' then
    { s with commentScope := .none }
  else if ch = '/' ∧ s.stringScope = .none ∧ next = some '*' then
    { s with commentScope := .multiline }
  else if s.commentScope ≠ .none then s
  else if ch = '-' ∧ s.stringScope = .none ∧ next = some '-' then
    { s with commentScope := .singleline }
  else
    let s := if ch = '\'' then s.quote prev .singleQuotes else s
    let s := if ch = '"' then s.quote prev .doubleQuotes else s
    s.add ch

end Splitter

/-- The loop over the text of a file -/
def split (sqlString : Text) : Splitter := foldAround Splitter.step none sqlString none {}

/-- A call on the database -/
inductive DatabaseCall where
  | beginTransaction
  | execute (sql : Text)
  | pExecute (format : Text) (args : List Text)
  | commitTransactionDirect
  deriving DecidableEq

/-- What is read of a string by `c_str` -/
def cStr (s : Text) : Text := s.takeWhile (· ≠ '\x00')

def migrationTable : Text := "migrations".toList

def insertMigration : Text :=
  ("INSERT INTO `%s` (`Name`, `Module`, `Hash`, `AppliedAt`) " ++
    "VALUES ('%s', '%s', '%s', NOW());").toList

/-- What is returned, and the calls. The database answers that a transaction has begun, and later
whether it is committed. -/
def executeUpdate (migration : FileMigration) (begun committed : Bool) : Bool × List DatabaseCall :=
  if !begun then (false, [.beginTransaction])
  else
    let s := split migration.fileData
    let queries :=
      if s.query.any fun c => c ∉ ['\t', '\r', '\n', ' '] then s.queries ++ [s.query] else s.queries
    if s.stringScope ≠ .none then (false, [.beginTransaction])
    else
      (committed, [.beginTransaction] ++ queries.map (fun query => .execute (cStr query)) ++
        [.pExecute insertMigration
          [migrationTable, cStr migration.name, cStr migration.module, cStr migration.hash],
         .commitTransactionDirect])

/-- The queries that are passed to `Execute` -/
def executed (calls : List DatabaseCall) : List Text :=
  calls.filterMap fun
    | .execute sql => some sql
    | _ => none

example : executed (executeUpdate { fileData := "'a;';-- b\n1;".toList } true true).2 =
    ["'a;';".toList, " 1;".toList] := by decide

end AutoUpdater

end Windrunner
