/-
The migration runner: which files of a directory are migrations, in which order
they are applied, and the one transaction that applies them.
-/
import StatementAnalyzer.Async.Procedure
import StatementAnalyzer.Database.Columns
import StatementAnalyzer.Errors
import StatementAnalyzer.Js.Number
import Mathlib.Data.List.Sort

namespace StatementAnalyzer

open Async

structure FilePath where
  directory : JsString
  fileName : JsString
deriving DecidableEq, Repr

structure MigrationFile where
  version : JsString
  filePath : FilePath
deriving DecidableEq, Repr

/-- `[a-z0-9_]` -/
def isNameUnit (unit : UInt16) : Bool :=
  (0x61 ≤ unit && unit ≤ 0x7A) || isDigit unit || unit == 0x5F

/-- `/^\d+_[a-z0-9_]+\.sql$/`: neither class holds the unit that follows it. -/
def isMigrationFile (fileName : JsString) : Bool :=
  !(fileName.takeWhile isDigit).isEmpty &&
    match fileName.dropWhile isDigit with
    | 0x5F :: rest =>
        !(rest.takeWhile isNameUnit).isEmpty &&
          rest.dropWhile isNameUnit == js ".sql"
    | _ => false

example : isMigrationFile (js "001_create_statements.sql") = true := by decide

/-- The number that the leading digits denote. -/
def numericPrefix (fileName : JsString) : Nat :=
  digitsValue (fileName.takeWhile isDigit)

/-- `Number(fileName.match(/^\d+/)?.[0])` -/
def sortNumber (fileName : JsString) : WithTop Nat :=
  toNumber (numericPrefix fileName)

/-- `path.join(directory, fileName)` is a pair here. -/
def toMigrationFile (fileName directory : JsString) : MigrationFile where
  version := fileName.take (fileName.length - 4)
  filePath := ⟨directory, fileName⟩

/-- The statements that `runMigrations` sends over its client. -/
inductive MigrationQuery where
  | begin
  | createSchemaMigrations
  | selectApplied (version : JsString)
  | script (sql : JsString)
  | insertVersion (version : JsString)
  | commit
  | rollback
deriving DecidableEq, Repr

/-- The row count of the SELECT. -/
abbrev MigrationQuery.Answer : MigrationQuery → Type
  | selectApplied _ => Nat
  | _ => Unit

inductive MigrationCall where
  | readdir (directory : JsString)
  | readFile (filePath : FilePath)
  | connect
  | query (q : MigrationQuery)
  | release

abbrev MigrationCall.Answer : MigrationCall → Type
  | readdir _ => List JsString
  | readFile _ => JsString
  | query q => q.Answer
  | _ => Unit

abbrev MigrationProgram : Type → Type :=
  Proc MigrationCall MigrationCall.Answer Thrown

namespace Migrations

def query (q : MigrationQuery) : MigrationProgram q.Answer :=
  Proc.call (MigrationCall.query q)

/-- `NaN`, the difference of two infinities, counts as zero in a comparison
function, and the sort is stable. -/
def sortFileNames (fileNames : List JsString) : List JsString :=
  fileNames.insertionSort fun left right => sortNumber left ≤ sortNumber right

def listMigrationFiles (directory : JsString) :
    MigrationProgram (List MigrationFile) := do
  let fileNames ← Proc.call (MigrationCall.readdir directory)
  return (sortFileNames (fileNames.filter isMigrationFile)).map fun fileName =>
    toMigrationFile fileName directory

def rollback (originalError : Thrown) : MigrationProgram Unit :=
  (query .rollback).andThen fun
    | .ok _ => Proc.throwing originalError
    | .error _ => Proc.throwing aggregateError

/-- The loop over the migration files. -/
def applyMigrations : List MigrationFile → MigrationProgram Unit
  | [] => return ()
  | migration :: rest => do
      let applied ← query (.selectApplied migration.version)
      if applied ≠ 0 then applyMigrations rest
      else
        let sql ← Proc.call (MigrationCall.readFile migration.filePath)
        query (.script sql)
        query (.insertVersion migration.version)
        applyMigrations rest

def runMigrations (directory : JsString) : MigrationProgram Unit := do
  let migrationFiles ← listMigrationFiles directory
  Proc.call MigrationCall.connect
  ((do
    query .begin
    query .createSchemaMigrations
    applyMigrations migrationFiles
    query .commit).orElse rollback).ensure (Proc.call MigrationCall.release)

end Migrations

/-- A file of the directory. -/
structure DirectoryEntry where
  fileName : JsString
  contents : JsString
deriving DecidableEq, Repr

/-- What the migrations have left in the database: the rows of
`schema_migrations`, absent before the table is created, and the scripts whose
effects it holds, in the order of their execution. -/
structure MigratedTables where
  schemaMigrations : Option (List JsString)
  executed : List JsString
deriving DecidableEq, Repr

/-- The session behind the client in the pool. -/
inductive MigrationSession where
  | idle
  | working (draft : MigratedTables)
  | aborted
  | lost
deriving DecidableEq, Repr

structure MigrationStore where
  directory : List DirectoryEntry
  tables : MigratedTables
  session : MigrationSession

/-- What a statement does to the tables; `none` where it fails by itself.  A
script can also fail, like any other statement. -/
def MigrationQuery.apply (tables : MigratedTables) :
    (q : MigrationQuery) → Option (q.Answer × MigratedTables)
  | .createSchemaMigrations =>
      some ((), { tables with
        schemaMigrations := some (tables.schemaMigrations.getD []) })
  | .selectApplied version =>
      tables.schemaMigrations.map fun rows => (rows.count version, tables)
  | .script sql => some ((), { tables with executed := tables.executed ++ [sql] })
  | .insertVersion version =>
      match tables.schemaMigrations with
      | none => none
      | some rows =>
          if rows.contains version then none
          else some ((), { tables with
            schemaMigrations := some (rows ++ [version]) })
  | .begin | .commit | .rollback => some ((), tables)

namespace MigrationStore

def serveStatement (w : MigrationStore) (q : MigrationQuery) :
    Option (q.Answer × MigrationStore) :=
  match w.session with
  | .idle =>
      -- a statement outside a transaction is one of its own
      (q.apply w.tables).map fun (answer, tables) =>
        (answer, { w with tables := tables })
  | .working draft =>
      (q.apply draft).map fun (answer, draft) =>
        (answer, { w with session := .working draft })
  | _ => none

/-- What the server makes of a statement. -/
def serve (w : MigrationStore) :
    (q : MigrationQuery) → Option (q.Answer × MigrationStore)
  | .begin =>
      match w.session with
      | .idle => some ((), { w with session := .working w.tables })
      | .working draft => some ((), { w with session := .working draft })
      | _ => none
  | .commit =>
      match w.session with
      | .working draft => some ((), { w with tables := draft, session := .idle })
      | .lost => none
      | _ => some ((), { w with session := .idle })
  | .rollback =>
      match w.session with
      | .lost => none
      | _ => some ((), { w with session := .idle })
  | q => w.serveStatement q

end MigrationStore

/-- The session after the server has refused a statement. -/
def MigrationSession.fail (q : MigrationQuery) :
    MigrationSession → MigrationSession
  | working _ => if q = .commit then idle else aborted
  | session => session

/-- The pool replaces a client that has lost its connection. -/
def MigrationSession.connect : MigrationSession → MigrationSession
  | lost => idle
  | session => session

/-- The outcomes of a call.  A COMMIT that reports a failure has had no
effect. -/
inductive MigrationCall.Exec : MigrationStore → (op : MigrationCall) →
    Except Thrown op.Answer → MigrationStore → Prop
  | listed {w : MigrationStore} {directory : JsString}
      {fileNames : List JsString}
      (h : fileNames.Perm (w.directory.map DirectoryEntry.fileName)) :
      Exec w (.readdir directory) (.ok fileNames) w
  | unlisted {w : MigrationStore} {directory : JsString} {error : Thrown} :
      Exec w (.readdir directory) (.error error) w
  | read {w : MigrationStore} {directory : JsString} {entry : DirectoryEntry}
      (h : entry ∈ w.directory) :
      Exec w (.readFile ⟨directory, entry.fileName⟩) (.ok entry.contents) w
  | unread {w : MigrationStore} {filePath : FilePath} {error : Thrown} :
      Exec w (.readFile filePath) (.error error) w
  | connected {w : MigrationStore} :
      Exec w .connect (.ok ()) { w with session := w.session.connect }
  | unavailable {w : MigrationStore} {error : Thrown} :
      Exec w .connect (.error error) w
  | served {w w' : MigrationStore} {q : MigrationQuery} {answer : q.Answer}
      (h : w.serve q = some (answer, w')) :
      Exec w (.query q) (.ok answer) w'
  | refused {w : MigrationStore} {q : MigrationQuery} {error : Thrown}
      (hq : q ≠ .rollback) :
      Exec w (.query q) (.error error)
        { w with session := w.session.fail q }
  | lost {w : MigrationStore} {q : MigrationQuery} {error : Thrown} :
      Exec w (.query q) (.error error) { w with session := .lost }
  | released {w : MigrationStore} : Exec w .release (.ok ()) w

end StatementAnalyzer
