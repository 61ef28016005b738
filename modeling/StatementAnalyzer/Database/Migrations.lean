/-
One migration run: the order of the files, and what the run does to the tables,
wherever it fails.
-/
import StatementAnalyzer.Async.Outline
import StatementAnalyzer.Database.Migrate

namespace StatementAnalyzer

open Async

namespace Migrations

/-- The files of the directory that are migrations. -/
def migrationEntries (directory : List DirectoryEntry) : List DirectoryEntry :=
  directory.filter fun entry => isMigrationFile entry.fileName

/-- No two files have one name, and no two migrations one prefix, where `key`
says what the prefix of a name is. -/
structure Distinct {K : Type} (key : JsString → K)
    (directory : List DirectoryEntry) : Prop where
  fileNames : (directory.map DirectoryEntry.fileName).Nodup
  prefixes : ∀ entry ∈ migrationEntries directory,
    ∀ other ∈ migrationEntries directory,
      key entry.fileName = key other.fileName → entry = other

def version (fileName : JsString) : JsString :=
  fileName.take (fileName.length - 4)

/-- The versions that `schema_migrations` lists. -/
def versions (tables : MigratedTables) : List JsString :=
  tables.schemaMigrations.getD []

/-- The migrations in the order in which a run goes through them. -/
def inOrder (directory : List DirectoryEntry) : List DirectoryEntry :=
  (migrationEntries directory).insertionSort fun left right =>
    sortNumber left.fileName ≤ sortNumber right.fileName

section Order

variable {directory entries : List DirectoryEntry}

theorem perm_inOrder (directory : List DirectoryEntry) :
    (inOrder directory).Perm (migrationEntries directory) :=
  List.perm_insertionSort _ _

theorem Distinct.nodup {K : Type} {key : JsString → K}
    (h : Distinct key directory) : directory.Nodup :=
  h.fileNames.of_map _

theorem Distinct.nodup_migrationEntries {K : Type} {key : JsString → K}
    (h : Distinct key directory) : (migrationEntries directory).Nodup :=
  h.nodup.filter _

theorem Distinct.nodup_inOrder {K : Type} {key : JsString → K}
    (h : Distinct key directory) : (inOrder directory).Nodup :=
  (perm_inOrder directory).nodup_iff.mpr h.nodup_migrationEntries

theorem mem_inOrder_iff {entry : DirectoryEntry} :
    entry ∈ inOrder directory ↔ entry ∈ migrationEntries directory :=
  (perm_inOrder directory).mem_iff

theorem pairwise_le_inOrder (directory : List DirectoryEntry) :
    (inOrder directory).Pairwise fun left right =>
      sortNumber left.fileName ≤ sortNumber right.fileName := by
  have htotal : Std.Total fun left right : DirectoryEntry =>
      sortNumber left.fileName ≤ sortNumber right.fileName :=
    ⟨fun _ _ => le_total _ _⟩
  have htrans : IsTrans _ fun left right : DirectoryEntry =>
      sortNumber left.fileName ≤ sortNumber right.fileName :=
    ⟨fun _ _ _ => le_trans⟩
  exact List.pairwise_insertionSort _ _

theorem pairwise_inOrder (h : Distinct sortNumber directory) :
    (inOrder directory).Pairwise fun left right =>
      sortNumber left.fileName < sortNumber right.fileName := by
  apply ((pairwise_le_inOrder directory).and h.nodup_inOrder).imp_of_mem
  intro left right hleft hright hrel
  apply lt_of_le_of_ne hrel.1
  intro heq
  exact hrel.2 (h.prefixes left (mem_inOrder_iff.mp hleft) right
    (mem_inOrder_iff.mp hright) heq)

/-- There is one order. -/
theorem eq_inOrder (h : Distinct sortNumber directory)
    (hperm : entries.Perm (migrationEntries directory))
    (hpairwise : entries.Pairwise fun left right =>
      sortNumber left.fileName < sortNumber right.fileName) :
    entries = inOrder directory := by
  apply List.Perm.eq_of_pairwise ?_ hpairwise (pairwise_inOrder h)
    (hperm.trans (perm_inOrder directory).symm)
  intro left right _ _ hlt hgt
  exact absurd hgt (lt_asymm hlt)

theorem pairwise_sortFileNames (fileNames : List JsString) :
    (sortFileNames fileNames).Pairwise fun left right =>
      sortNumber left ≤ sortNumber right := by
  have htotal : Std.Total fun left right : JsString =>
      sortNumber left ≤ sortNumber right := ⟨fun _ _ => le_total _ _⟩
  have htrans : IsTrans _ fun left right : JsString =>
      sortNumber left ≤ sortNumber right := ⟨fun _ _ _ => le_trans⟩
  exact List.pairwise_insertionSort _ _

/-- Whatever the enumeration, the sort finds that order. -/
theorem sortFileNames_eq (h : Distinct sortNumber directory)
    {fileNames : List JsString}
    (hperm : fileNames.Perm (directory.map DirectoryEntry.fileName)) :
    sortFileNames (fileNames.filter isMigrationFile) =
      (inOrder directory).map DirectoryEntry.fileName := by
  have hfilter : (fileNames.filter isMigrationFile).Perm
      ((migrationEntries directory).map DirectoryEntry.fileName) := by
    have hnames := hperm.filter isMigrationFile
    rwa [List.filter_map] at hnames
  have hsort : (sortFileNames (fileNames.filter isMigrationFile)).Perm
      ((migrationEntries directory).map DirectoryEntry.fileName) :=
    (List.perm_insertionSort _ _).trans hfilter
  have hinOrder : ((inOrder directory).map DirectoryEntry.fileName).Pairwise
      fun left right => sortNumber left ≤ sortNumber right :=
    List.pairwise_map.mpr (pairwise_le_inOrder directory)
  apply List.Perm.eq_of_pairwise ?_ (pairwise_sortFileNames _) hinOrder
    (hsort.trans ((perm_inOrder directory).map _).symm)
  intro left right hleft hright hle hge
  obtain ⟨entry, hentry, rfl⟩ := List.mem_map.mp (hsort.mem_iff.mp hleft)
  obtain ⟨other, hother, rfl⟩ := List.mem_map.mp hright
  rw [h.prefixes entry hentry other (mem_inOrder_iff.mp hother)
    (le_antisymm hle hge)]

theorem version_append (stem : JsString) : version (stem ++ js ".sql") = stem := by
  have hlength : (js ".sql").length = 4 := by decide
  rw [version, List.length_append, hlength, Nat.add_sub_cancel, List.take_left]

/-- A migration is named after its version. -/
theorem isMigrationFile_eq {fileName : JsString}
    (h : isMigrationFile fileName = true) :
    fileName = version fileName ++ js ".sql" := by
  rw [isMigrationFile, Bool.and_eq_true] at h
  obtain ⟨_, h⟩ := h
  have hname := List.takeWhile_append_dropWhile (p := isDigit) (l := fileName)
  split at h
  case h_2 => cases h
  case h_1 rest hrest =>
    rw [Bool.and_eq_true, beq_iff_eq] at h
    have hunits := List.takeWhile_append_dropWhile (p := isNameUnit) (l := rest)
    rw [h.2] at hunits
    rw [hrest, ← hunits, ← List.cons_append, ← List.append_assoc] at hname
    rw [← hname, version_append]

theorem version_injective {left right : JsString}
    (hleft : isMigrationFile left = true) (hright : isMigrationFile right = true)
    (h : version left = version right) : left = right := by
  rw [isMigrationFile_eq hleft, isMigrationFile_eq hright, h]

end Order

/-- What one step of the loop does to the tables. -/
def applyEntry (tables : MigratedTables) (entry : DirectoryEntry) :
    MigratedTables :=
  if (versions tables).contains (version entry.fileName) then tables
  else
    { schemaMigrations := some (versions tables ++ [version entry.fileName])
      executed := tables.executed ++ [entry.contents] }

theorem applyEntry_of_mem {tables : MigratedTables} {entry : DirectoryEntry}
    (h : version entry.fileName ∈ versions tables) :
    applyEntry tables entry = tables :=
  if_pos (List.contains_iff_mem.mpr h)

theorem applyEntry_of_not_mem {tables : MigratedTables} {entry : DirectoryEntry}
    (h : version entry.fileName ∉ versions tables) :
    applyEntry tables entry =
      { schemaMigrations := some (versions tables ++ [version entry.fileName])
        executed := tables.executed ++ [entry.contents] } :=
  if_neg (mt List.contains_iff_mem.mp h)

/-- The tables once `schema_migrations` is there. -/
def created (tables : MigratedTables) : MigratedTables :=
  { tables with schemaMigrations := some (versions tables) }

/-- The tables after the migrations `entries` alone. -/
def tablesOf (entries : List DirectoryEntry) : MigratedTables where
  schemaMigrations := some (entries.map fun entry => version entry.fileName)
  executed := entries.map DirectoryEntry.contents

section Tables

variable {applied pending : List DirectoryEntry}

theorem foldl_applied (h : ∀ entry ∈ pending, entry ∈ applied) :
    pending.foldl applyEntry (tablesOf applied) = tablesOf applied := by
  induction pending with
  | nil => rfl
  | cons entry rest ih =>
      rw [List.forall_mem_cons] at h
      have hmem : version entry.fileName ∈ versions (tablesOf applied) :=
        List.mem_map.mpr ⟨entry, h.1, rfl⟩
      rw [List.foldl_cons, applyEntry_of_mem hmem]
      exact ih h.2

theorem foldl_pending
    (h : ((applied ++ pending).map fun entry => version entry.fileName).Nodup) :
    pending.foldl applyEntry (tablesOf applied) = tablesOf (applied ++ pending) := by
  induction pending generalizing applied with
  | nil => simp
  | cons entry rest ih =>
      have hnew : version entry.fileName ∉ versions (tablesOf applied) := by
        intro hmem
        rw [List.map_append, List.nodup_append] at h
        exact h.2.2 _ hmem _ (List.mem_map_of_mem List.mem_cons_self) rfl
      have hstep : applyEntry (tablesOf applied) entry =
          tablesOf (applied ++ [entry]) := by
        rw [applyEntry_of_not_mem hnew]
        simp [tablesOf, versions]
      have happend : applied ++ entry :: rest = applied ++ [entry] ++ rest := by simp
      rw [List.foldl_cons, hstep, happend]
      rw [happend] at h
      exact ih h

end Tables

section Statements

variable {tables : MigratedTables} {rows : List JsString}

theorem versions_of_some (h : tables.schemaMigrations = some rows) :
    versions tables = rows := by
  rw [versions, h, Option.getD_some]

theorem apply_selectApplied (h : tables.schemaMigrations = some rows)
    (text : JsString) : (MigrationQuery.selectApplied text).apply tables =
      some (rows.count text, tables) := by
  rw [MigrationQuery.apply, h, Option.map_some]

theorem apply_insertVersion (tables : MigratedTables)
    (h : tables.schemaMigrations = some rows)
    {text : JsString} (hnew : text ∉ rows) :
    (MigrationQuery.insertVersion text).apply tables =
      some ((), { tables with schemaMigrations := some (rows ++ [text]) }) := by
  rw [MigrationQuery.apply, h]
  exact if_neg (mt List.contains_iff_mem.mp hnew)

/-- Neither begins nor ends a transaction. -/
def Plain (q : MigrationQuery) : Prop :=
  q ≠ .begin ∧ q ≠ .commit ∧ q ≠ .rollback

theorem plain_createSchemaMigrations : Plain .createSchemaMigrations := by
  simp [Plain]

theorem plain_selectApplied (text : JsString) : Plain (.selectApplied text) := by
  simp [Plain]

theorem plain_script (sql : JsString) : Plain (.script sql) := by
  simp [Plain]

theorem plain_insertVersion (text : JsString) : Plain (.insertVersion text) := by
  simp [Plain]

theorem serve_plain {q : MigrationQuery} {w : MigrationStore} (hq : Plain q) :
    w.serve q = w.serveStatement q := by
  cases q <;> simp_all [Plain, MigrationStore.serve]

end Statements

section Run

variable {w₀ : MigrationStore} {draft : MigratedTables} {directory : JsString}

/-- The run has not touched the tables. -/
def Untouched (w₀ w : MigrationStore) : Prop :=
  w.directory = w₀.directory ∧ w.tables = w₀.tables

/-- The run has committed every migration of the directory. -/
def Committed (w₀ w : MigrationStore) : Prop :=
  w.directory = w₀.directory ∧
    w.tables = (inOrder w₀.directory).foldl applyEntry (created w₀.tables)

/-- Outside any transaction. -/
def Outside (session : MigrationSession) : Prop :=
  session = .idle ∨ session = .lost

/-- The states in which a run makes its calls. -/
def CallsIn (w₀ w : MigrationStore) (op : MigrationCall) : Prop :=
  (Untouched w₀ w ∨ Committed w₀ w) ∧
    ∀ sql, op = .query (.script sql) →
      ∃ entry ∈ migrationEntries w₀.directory,
        version entry.fileName ∉ versions w₀.tables

theorem CallsIn.of_untouched {w : MigrationStore} {op : MigrationCall}
    (h : Untouched w₀ w) (hop : ∀ sql, op ≠ .query (.script sql)) :
    CallsIn w₀ w op :=
  ⟨.inl h, fun sql hsql => absurd hsql (hop sql)⟩

/-- A statement in the transaction changes the draft, or it fails. -/
theorem exec_working {q : MigrationQuery} {answer : Except Thrown q.Answer}
    {w w' : MigrationStore}
    (hq : Plain q)
    (hsession : w.session = .working draft)
    (h : MigrationCall.Exec w (.query q) answer w') :
    (∃ value draft', answer = .ok value ∧ q.apply draft = some (value, draft') ∧
        w' = { w with session := .working draft' }) ∨
      ∃ error, answer = .error error ∧ Untouched w w' := by
  cases h with
  | refused _ => exact .inr ⟨_, rfl, rfl, rfl⟩
  | lost => exact .inr ⟨_, rfl, rfl, rfl⟩
  | @served _ _ value hserve =>
      rw [serve_plain hq, MigrationStore.serveStatement, hsession,
        Option.map_eq_some_iff] at hserve
      obtain ⟨⟨value, draft'⟩, happly, heq⟩ := hserve
      cases heq
      exact .inl ⟨value, draft', rfl, happly, rfl⟩

/-- Inside the transaction with the given draft. -/
def Working (w₀ : MigrationStore) (draft : MigratedTables) (w : MigrationStore) :
    Prop :=
  Untouched w₀ w ∧ w.session = .working draft

/-- A part of the run inside the transaction: it has changed only the draft, and
where it succeeds the draft is `draft`. -/
def Drafts (w₀ : MigrationStore) (draft : MigratedTables) (w : MigrationStore)
    (result : Except Thrown Unit) : Prop :=
  Untouched w₀ w ∧ (result = .ok () → w.session = .working draft)

theorem Drafts.failed {w : MigrationStore} {error : Thrown}
    (h : Untouched w₀ w) : Drafts w₀ draft w (.error error) :=
  ⟨h, nofun⟩

/-- One statement inside the transaction. -/
theorem outline_query (q : MigrationQuery) {w : MigrationStore}
    {post : MigrationStore → Except Thrown q.Answer → Prop} (hq : Plain q)
    (hcall : CallsIn w₀ w (.query q)) (h : Working w₀ draft w)
    (hok : ∀ value draft' w', q.apply draft = some (value, draft') →
      Working w₀ draft' w' → post w' (.ok value))
    (herror : ∀ error w', Untouched w₀ w' → post w' (.error error)) :
    (query q).Outline MigrationCall.Exec (CallsIn w₀) post w := by
  refine ⟨hcall, fun answer w' hexec => ?_⟩
  rcases exec_working hq h.2 hexec with
    ⟨value, draft', rfl, happly, rfl⟩ | ⟨error, rfl, hdirectory, htables⟩
  · exact hok value draft' _ happly ⟨h.1, rfl⟩
  · exact herror error w' ⟨hdirectory.trans h.1.1, htables.trans h.1.2⟩

/-- The file is there, and it is the only one of its name. -/
theorem outline_readFile {entry : DirectoryEntry} {w : MigrationStore}
    {post : MigrationStore → Except Thrown JsString → Prop}
    (hnames : (w₀.directory.map DirectoryEntry.fileName).Nodup)
    (hentry : entry ∈ w₀.directory) (h : Untouched w₀ w)
    (hok : post w (.ok entry.contents))
    (herror : ∀ error, post w (.error error)) :
    (Proc.call (MigrationCall.readFile ⟨directory, entry.fileName⟩) :
      MigrationProgram JsString).Outline MigrationCall.Exec (CallsIn w₀) post w := by
  refine ⟨.of_untouched h nofun, fun answer w' hexec => ?_⟩
  generalize hpath : FilePath.mk directory entry.fileName = filePath at hexec
  cases hexec with
  | unread => exact herror _
  | @read _ other hother =>
      rw [h.1] at hother
      have hsame : other = entry :=
        List.inj_on_of_nodup_map hnames hother hentry (FilePath.mk.inj hpath).2.symm
      rw [hsame]
      exact hok

/-- A migration that has not been applied yet. -/
theorem outline_pending {entry : DirectoryEntry} {final : MigratedTables}
    {next : MigrationProgram Unit} {w : MigrationStore}
    (hnames : (w₀.directory.map DirectoryEntry.fileName).Nodup)
    (hentry : entry ∈ migrationEntries w₀.directory)
    (hcreated : draft.schemaMigrations ≠ none)
    (hnew : version entry.fileName ∉ versions draft)
    (hold : version entry.fileName ∉ versions w₀.tables)
    (hnext : ∀ w', Working w₀ (applyEntry draft entry) w' →
      next.Outline MigrationCall.Exec (CallsIn w₀) (Drafts w₀ final) w')
    (h : Working w₀ draft w) :
    Proc.Outline MigrationCall.Exec (CallsIn w₀) (Drafts w₀ final) (do
      let sql ← Proc.call (MigrationCall.readFile ⟨directory, entry.fileName⟩)
      query (.script sql)
      query (.insertVersion (version entry.fileName))
      next : MigrationProgram Unit) w := by
  obtain ⟨rows, hrows⟩ := Option.ne_none_iff_exists'.mp hcreated
  rw [versions_of_some hrows] at hnew
  apply Proc.Outline.bind
  apply outline_readFile hnames (List.mem_of_mem_filter hentry) h.1
  case herror => exact fun error => ⟨nofun, fun _ _ => .failed h.1⟩
  refine ⟨fun sql hsql => ?_, nofun⟩
  cases hsql
  apply Proc.Outline.bind
  apply outline_query (.script entry.contents) (plain_script _)
    ⟨.inl h.1, fun _ _ => ⟨entry, hentry, hold⟩⟩ h
  case herror => exact fun error w' hw' => ⟨nofun, fun _ _ => .failed hw'⟩
  intro _ executed w' hexecuted hw'
  cases hexecuted
  refine ⟨fun _ _ => ?_, nofun⟩
  apply Proc.Outline.bind
  apply outline_query (.insertVersion (version entry.fileName))
    (plain_insertVersion _) (.of_untouched hw'.1 nofun) hw'
  case herror => exact fun error w' hw' => ⟨nofun, fun _ _ => .failed hw'⟩
  intro _ inserted w'' hinserted hw''
  refine ⟨fun _ _ => ?_, nofun⟩
  have hinsert := apply_insertVersion { draft with
    executed := draft.executed ++ [entry.contents] } hrows hnew
  rw [hinsert, Option.some_inj] at hinserted
  cases hinserted
  apply hnext
  rw [applyEntry_of_not_mem (by rwa [versions_of_some hrows]), versions_of_some hrows]
  exact hw''

theorem outline_applyMigrations {rest : List DirectoryEntry} {w : MigrationStore}
    (hnames : (w₀.directory.map DirectoryEntry.fileName).Nodup)
    (hrest : ∀ entry ∈ rest, entry ∈ migrationEntries w₀.directory)
    (hcreated : draft.schemaMigrations ≠ none)
    (hrows : ∀ row ∈ versions w₀.tables, row ∈ versions draft)
    (h : Working w₀ draft w) :
    (applyMigrations (rest.map fun entry =>
        toMigrationFile entry.fileName directory)).Outline MigrationCall.Exec
      (CallsIn w₀) (Drafts w₀ (rest.foldl applyEntry draft)) w := by
  induction rest generalizing draft w with
  | nil => exact ⟨h.1, fun _ => h.2⟩
  | cons entry rest ih =>
      rw [List.forall_mem_cons] at hrest
      obtain ⟨rows, hsome⟩ := Option.ne_none_iff_exists'.mp hcreated
      have hversions := versions_of_some hsome
      rw [List.map_cons, applyMigrations]
      apply Proc.Outline.bind
      apply outline_query (.selectApplied (version entry.fileName))
        (plain_selectApplied _) (.of_untouched h.1 nofun) h
      case herror => exact fun error w' hw' => ⟨nofun, fun _ _ => .failed hw'⟩
      intro applied draft' w' happly hw'
      refine ⟨fun value hvalue => ?_, nofun⟩
      cases hvalue
      rw [apply_selectApplied hsome, Option.some_inj] at happly
      obtain ⟨hcount, rfl⟩ := Prod.mk.inj happly
      by_cases hmem : version entry.fileName ∈ versions draft
      · have happlied : applied ≠ 0 := by
          rw [← hcount, ← hversions]
          exact (List.count_pos_iff.mpr hmem).ne'
        rw [if_pos happlied, List.foldl_cons, applyEntry_of_mem hmem]
        exact ih hrest.2 hcreated hrows hw'
      · have happlied : ¬applied ≠ 0 := by
          rw [← hcount, ← hversions, not_not]
          exact List.count_eq_zero.mpr hmem
        rw [if_neg happlied]
        apply outline_pending hnames hrest.1 hcreated hmem
          (fun hold => hmem (hrows _ hold)) (fun w'' hw'' => ?_) hw'
        apply ih hrest.2 ?_ ?_ hw''
        · rw [applyEntry_of_not_mem hmem]
          exact Option.some_ne_none _
        · intro row hrow
          rw [applyEntry_of_not_mem hmem]
          exact List.mem_append_left _ (hrows row hrow)

/-- How the `try` block settles. -/
def Tried (w₀ w : MigrationStore) (result : Except Thrown Unit) : Prop :=
  (∀ error, result = .error error → Untouched w₀ w) ∧
    (result = .ok () → Committed w₀ w ∧ Outside w.session)

theorem Tried.failed {w : MigrationStore} {error : Thrown}
    (h : Untouched w₀ w) : Tried w₀ w (.error error) :=
  ⟨fun _ _ => h, nofun⟩

theorem outline_begin {w : MigrationStore}
    {post : MigrationStore → Except Thrown Unit → Prop} (h : Untouched w₀ w)
    (hsession : w.session = .idle)
    (hok : ∀ w', Working w₀ w₀.tables w' → post w' (.ok ()))
    (herror : ∀ error w', Untouched w₀ w' → post w' (.error error)) :
    (query .begin).Outline MigrationCall.Exec (CallsIn w₀) post w := by
  refine ⟨.of_untouched h nofun, fun answer w' hexec => ?_⟩
  cases hexec with
  | refused _ => exact herror _ _ h
  | lost => exact herror _ _ h
  | served hserve =>
      simp only [MigrationStore.serve, hsession, Option.some_inj,
        Prod.mk.injEq] at hserve
      rw [← hserve.2]
      apply hok
      exact ⟨h, by rw [h.2]⟩

/-- The draft becomes visible with the COMMIT, and only if it succeeds. -/
theorem outline_commit {w : MigrationStore} (h : Working w₀ draft w)
    (hdraft : draft =
      (inOrder w₀.directory).foldl applyEntry (created w₀.tables)) :
    (query .commit).Outline MigrationCall.Exec (CallsIn w₀) (Tried w₀) w := by
  refine ⟨.of_untouched h.1 nofun, fun answer w' hexec => ?_⟩
  cases hexec with
  | refused _ => exact .failed h.1
  | lost => exact .failed h.1
  | served hserve =>
      simp only [MigrationStore.serve, h.2, Option.some_inj,
        Prod.mk.injEq] at hserve
      rw [← hserve.2]
      exact ⟨nofun, fun _ => ⟨⟨h.1.1, hdraft⟩, .inl rfl⟩⟩

/-- After the ROLLBACK, answered or not, no transaction is left. -/
theorem outline_rollback {w : MigrationStore} {error : Thrown}
    (h : Untouched w₀ w) :
    (rollback error).Outline MigrationCall.Exec (CallsIn w₀)
      (fun w' result => Tried w₀ w' result ∧ Outside w'.session) w := by
  apply Proc.Outline.andThen
  refine ⟨.of_untouched h nofun, fun answer w' hexec => ?_⟩
  cases hexec with
  | refused hq => exact absurd rfl hq
  | lost => exact ⟨.failed h, .inr rfl⟩
  | served hserve =>
      simp only [MigrationStore.serve] at hserve
      split at hserve
      · cases hserve
      · cases hserve
        exact ⟨.failed h, .inl rfl⟩

/-- The files come in their order, however the directory lists them. -/
theorem outline_listMigrationFiles {w : MigrationStore}
    {post : MigrationStore → Except Thrown (List MigrationFile) → Prop}
    (hdistinct : Distinct sortNumber w₀.directory) (h : Untouched w₀ w)
    (hok : post w (.ok ((inOrder w₀.directory).map fun entry =>
      toMigrationFile entry.fileName directory)))
    (herror : ∀ error, post w (.error error)) :
    (listMigrationFiles directory).Outline MigrationCall.Exec (CallsIn w₀) post
      w := by
  apply Proc.Outline.bind
  refine ⟨.of_untouched h nofun, fun answer w' hexec => ?_⟩
  cases hexec with
  | unlisted => exact ⟨nofun, fun error _ => herror error⟩
  | listed hperm =>
      refine ⟨fun fileNames hnames => ?_, nofun⟩
      cases hnames
      rw [h.1] at hperm
      rw [sortFileNames_eq hdistinct hperm, List.map_map]
      exact hok

/-- The transaction: all of it is committed, or nothing. -/
theorem outline_transaction {w : MigrationStore}
    (hdistinct : Distinct sortNumber w₀.directory) (h : Untouched w₀ w)
    (hsession : w.session = .idle) :
    Proc.Outline MigrationCall.Exec (CallsIn w₀) (Tried w₀) (do
      query .begin
      query .createSchemaMigrations
      applyMigrations ((inOrder w₀.directory).map fun entry =>
        toMigrationFile entry.fileName directory)
      query .commit : MigrationProgram Unit) w := by
  apply Proc.Outline.bind
  apply outline_begin h hsession
  case herror => exact fun error w' hw' => ⟨nofun, fun _ _ => .failed hw'⟩
  refine fun w' hw' => ⟨fun _ _ => ?_, nofun⟩
  apply Proc.Outline.bind
  apply outline_query .createSchemaMigrations plain_createSchemaMigrations
    (.of_untouched hw'.1 nofun) hw'
  case herror => exact fun error w' hw' => ⟨nofun, fun _ _ => .failed hw'⟩
  intro _ draft w'' hdraft hw''
  cases hdraft
  have hcreated : Working w₀ (created w₀.tables) w'' := hw''
  have hmigrations : ∀ entry ∈ inOrder w₀.directory,
      entry ∈ migrationEntries w₀.directory := fun _ => mem_inOrder_iff.mp
  have hrows : ∀ row ∈ versions w₀.tables,
      row ∈ versions (created w₀.tables) := fun row hrow => hrow
  refine ⟨fun _ _ => ?_, nofun⟩
  apply Proc.Outline.bind
  apply (outline_applyMigrations hdistinct.fileNames hmigrations
    (Option.some_ne_none _) hrows hcreated).mono
  rintro w₃ result ⟨huntouched, hworking⟩
  constructor
  · rintro _ rfl
    exact outline_commit ⟨huntouched, hworking rfl⟩ rfl
  · exact fun _ _ => .failed huntouched

/-- The client goes back to the pool, whatever the result. -/
theorem outline_release {w : MigrationStore} {result : Except Thrown Unit}
    (h : Tried w₀ w result) (hsession : Outside w.session) :
    (Proc.call MigrationCall.release : MigrationProgram Unit).Outline
      MigrationCall.Exec (CallsIn w₀) (fun w' done =>
        (done = .ok () → Tried w₀ w' result ∧ Outside w'.session) ∧
          ∀ error, done = .error error →
            Tried w₀ w' (.error error) ∧ Outside w'.session) w := by
  have hcall : Untouched w₀ w ∨ Committed w₀ w := by
    cases result with
    | ok _ => exact .inr (h.2 rfl).1
    | error error => exact .inl (h.1 error rfl)
  refine ⟨⟨hcall, nofun⟩, fun answer w' hexec => ?_⟩
  cases hexec with
  | released => exact ⟨fun _ => ⟨h, hsession⟩, nofun⟩

/-- A whole run. -/
theorem outline_runMigrations (hdistinct : Distinct sortNumber w₀.directory)
    (hsession : Outside w₀.session) :
    (runMigrations directory).Outline MigrationCall.Exec (CallsIn w₀)
      (fun w result => Tried w₀ w result ∧ Outside w.session) w₀ := by
  have hsame : Untouched w₀ w₀ := ⟨rfl, rfl⟩
  apply Proc.Outline.bind
  apply outline_listMigrationFiles hdistinct hsame
  case herror =>
    exact fun error => ⟨nofun, fun _ _ => ⟨.failed hsame, hsession⟩⟩
  refine ⟨fun files hfiles => ?_, nofun⟩
  cases hfiles
  apply Proc.Outline.bind
  refine ⟨.of_untouched hsame nofun, fun answer w hexec => ?_⟩
  cases hexec with
  | unavailable => exact ⟨nofun, fun _ _ => ⟨.failed hsame, hsession⟩⟩
  | connected =>
      refine ⟨fun _ _ => ?_, nofun⟩
      have hidle : w₀.session.connect = .idle := by
        rcases hsession with hidle | hlost
        · rw [hidle]
          rfl
        · rw [hlost]
          rfl
      have hconnected : Untouched w₀ { w₀ with session := w₀.session.connect } :=
        ⟨rfl, rfl⟩
      apply Proc.Outline.ensure
      apply Proc.Outline.orElse
      apply (outline_transaction hdistinct hconnected hidle).mono
      intro w result htried
      constructor
      · rintro value rfl
        exact outline_release htried (htried.2 rfl).2
      · rintro error rfl
        exact (outline_rollback (htried.1 error rfl)).mono
          fun w' result h => outline_release h.1 h.2

end Run

end Migrations

end StatementAnalyzer
