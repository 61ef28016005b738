/-
Whole histories of migration runs: however the runs fail and the directory
grows, what has been executed is what one run over the directory executes.
-/
import StatementAnalyzer.Database.Migrations

namespace StatementAnalyzer

open Async

namespace Migrations

section Success

variable {draft : MigratedTables} {directory : JsString} {w : MigrationStore}

/-- The store while a transaction has the given draft. -/
def drafting (w : MigrationStore) (draft : MigratedTables) : MigrationStore :=
  { w with session := .working draft }

theorem reaches_query (w : MigrationStore) (q : MigrationQuery)
    {value : q.Answer} {draft' : MigratedTables} (hq : Plain q)
    (happly : q.apply draft = some (value, draft')) :
    (query q).Reaches MigrationCall.Exec (drafting w draft) (.ok value)
      (drafting w draft') := by
  apply Proc.Reaches.await ?_ .settled
  apply MigrationCall.Exec.served
  rw [serve_plain hq, MigrationStore.serveStatement, drafting]
  simp only [happly, Option.map_some]
  rfl

theorem reaches_pending {entry : DirectoryEntry} {rows : List JsString}
    (hentry : entry ∈ w.directory) (hrows : draft.schemaMigrations = some rows)
    (hnew : version entry.fileName ∉ rows)
    {next : MigrationProgram Unit} {w' : MigrationStore}
    (hnext : next.Reaches MigrationCall.Exec
      (drafting w (applyEntry draft entry)) (.ok ()) w') :
    Proc.Reaches MigrationCall.Exec (do
      let sql ← Proc.call (MigrationCall.readFile ⟨directory, entry.fileName⟩)
      query (.script sql)
      query (.insertVersion (version entry.fileName))
      next : MigrationProgram Unit) (drafting w draft) (.ok ()) w' := by
  have hversions := versions_of_some hrows
  have hstep : applyEntry draft entry =
      ⟨some (rows ++ [version entry.fileName]),
        draft.executed ++ [entry.contents]⟩ := by
    rw [applyEntry_of_not_mem (by rwa [hversions]), hversions]
  rw [hstep] at hnext
  have hscript : (query (.script entry.contents)).Reaches MigrationCall.Exec
      (drafting w draft) (.ok ()) (drafting w
        { draft with executed := draft.executed ++ [entry.contents] }) :=
    reaches_query w (.script entry.contents) (plain_script _) rfl
  have hinserted := reaches_query w (.insertVersion (version entry.fileName))
    (plain_insertVersion _) (apply_insertVersion { draft with
      executed := draft.executed ++ [entry.contents] } hrows hnew)
  exact Proc.Reaches.await (.read hentry) (hscript.bind (hinserted.bind hnext))

/-- The loop when no statement fails. -/
theorem reaches_applyMigrations (directory : JsString) (draft : MigratedTables)
    {entries : List DirectoryEntry} (hentries : ∀ entry ∈ entries, entry ∈ w.directory)
    (hcreated : draft.schemaMigrations ≠ none) :
    (applyMigrations (entries.map fun entry =>
        toMigrationFile entry.fileName directory)).Reaches MigrationCall.Exec
      (drafting w draft) (.ok ()) (drafting w (entries.foldl applyEntry draft)) := by
  induction entries generalizing draft with
  | nil => exact .settled
  | cons entry rest ih =>
      rw [List.forall_mem_cons] at hentries
      obtain ⟨rows, hrows⟩ := Option.ne_none_iff_exists'.mp hcreated
      have hselected := reaches_query w
        (.selectApplied (version entry.fileName)) (plain_selectApplied _)
        (apply_selectApplied hrows _)
      rw [List.map_cons, applyMigrations, List.foldl_cons]
      apply hselected.bind
      have hversions := versions_of_some hrows
      by_cases hmem : version entry.fileName ∈ rows
      · rw [if_pos (List.count_pos_iff.mpr hmem).ne',
          applyEntry_of_mem (by rwa [hversions])]
        exact ih _ hentries.2 hcreated
      · have hcount : ¬rows.count (version entry.fileName) ≠ 0 := by
          rw [not_not]
          exact List.count_eq_zero.mpr hmem
        have hstep : (applyEntry draft entry).schemaMigrations ≠ none := by
          rw [applyEntry_of_not_mem (by rwa [hversions])]
          exact Option.some_ne_none _
        rw [if_neg hcount]
        exact reaches_pending hentries.1 hrows hmem (ih _ hentries.2 hstep)

theorem reaches_listMigrationFiles {fileNames : List JsString}
    {entries : List DirectoryEntry}
    (hperm : fileNames.Perm (w.directory.map DirectoryEntry.fileName))
    (hsorted : sortFileNames (fileNames.filter isMigrationFile) =
      entries.map DirectoryEntry.fileName) :
    (listMigrationFiles directory).Reaches MigrationCall.Exec w
      (.ok (entries.map fun entry => toMigrationFile entry.fileName directory))
      w := by
  have hfiles : entries.map (fun entry => toMigrationFile entry.fileName directory) =
      (sortFileNames (fileNames.filter isMigrationFile)).map fun fileName =>
        toMigrationFile fileName directory := by
    rw [hsorted, List.map_map]
    rfl
  rw [hfiles]
  exact .await (.listed hperm) .settled

/-- A run in which nothing fails, for any enumeration of the directory. -/
theorem reaches_runMigrations (directory : JsString) {fileNames : List JsString}
    {entries : List DirectoryEntry}
    (hperm : fileNames.Perm (w.directory.map DirectoryEntry.fileName))
    (hsorted : sortFileNames (fileNames.filter isMigrationFile) =
      entries.map DirectoryEntry.fileName)
    (hentries : ∀ entry ∈ entries, entry ∈ w.directory)
    (hsession : Outside w.session) :
    (runMigrations directory).Reaches MigrationCall.Exec w (.ok ())
      { w with
        tables := entries.foldl applyEntry (created w.tables)
        session := .idle } := by
  have hidle : w.session.connect = .idle := by
    rcases hsession with hidle | hlost
    · rw [hidle]
      rfl
    · rw [hlost]
      rfl
  have hconnect := MigrationCall.Exec.connected (w := w)
  rw [hidle] at hconnect
  have hbegin : (query .begin).Reaches MigrationCall.Exec
      { w with session := .idle } (.ok ()) (drafting w w.tables) :=
    .await (.served rfl) .settled
  have hcreate : (query .createSchemaMigrations).Reaches MigrationCall.Exec
      (drafting w w.tables) (.ok ()) (drafting w (created w.tables)) :=
    reaches_query w .createSchemaMigrations plain_createSchemaMigrations rfl
  have hcommit : (query .commit).Reaches MigrationCall.Exec
      (drafting w (entries.foldl applyEntry (created w.tables))) (.ok ())
      { w with
        tables := entries.foldl applyEntry (created w.tables)
        session := .idle } :=
    .await (.served rfl) .settled
  have happlied := reaches_applyMigrations directory (created w.tables) hentries
    (Option.some_ne_none _)
  apply (reaches_listMigrationFiles hperm hsorted).bind
  apply Proc.Reaches.await hconnect
  apply Proc.Reaches.ensure ?_ (.await .released .settled)
  apply Proc.Reaches.orElse
  exact hbegin.bind (hcreate.bind (happlied.bind hcommit))

end Success

section History

variable {K : Type} {key : JsString → K} {w w' : MigrationStore}

/-- The directory only grows, and what is added comes after everything that has
been applied. -/
structure Grows [LT K] (key : JsString → K) (w : MigrationStore)
    (directory : List DirectoryEntry) : Prop where
  keeps : ∀ entry ∈ w.directory, entry ∈ directory
  distinct : Distinct key directory
  later : ∀ entry ∈ migrationEntries directory, entry ∉ w.directory →
    ∀ applied ∈ migrationEntries w.directory,
      version applied.fileName ∈ versions w.tables →
        key applied.fileName < key entry.fileName

/-- The stores that a sequence of runs leads to.  A run that is cut off loses its
connection; the tables are then those of that moment. -/
inductive History [LT K] (key : JsString → K) : MigrationStore → Prop
  | fresh {directory : List DirectoryEntry} (hdistinct : Distinct key directory) :
      History key ⟨directory, ⟨none, []⟩, .lost⟩
  | grown {w : MigrationStore} {directory : List DirectoryEntry}
      (h : History key w) (hgrows : Grows key w directory) :
      History key { w with directory := directory }
  | called {w w' : MigrationStore} {directory : JsString}
      {trace : List (Async.Answered MigrationCall MigrationCall.Answer Thrown)}
      {result : Except Thrown Unit} (h : History key w)
      (hexec : (runMigrations directory).Executes MigrationCall.Exec w trace
        result w') :
      History key w'
  | interrupted {w w' : MigrationStore} {directory : JsString}
      {trace : List (Async.Answered MigrationCall MigrationCall.Answer Thrown)}
      (h : History key w)
      (hcut : (runMigrations directory).Interrupted MigrationCall.Exec w trace
        w') :
      History key { w' with session := .lost }

/-- Some migrations have been applied, the others come after them. -/
structure Applied (w : MigrationStore) (applied pending : List DirectoryEntry) :
    Prop where
  inOrder : applied ++ pending = inOrder w.directory
  versions : versions w.tables = applied.map fun entry => version entry.fileName
  executed : w.tables.executed = applied.map DirectoryEntry.contents

structure Consistent (w : MigrationStore) : Prop where
  distinct : Distinct sortNumber w.directory
  outside : Outside w.session
  applied : ∃ applied pending, Applied w applied pending

theorem Applied.created {applied pending : List DirectoryEntry}
    (h : Applied w applied pending) : created w.tables = tablesOf applied := by
  rw [Migrations.created, tablesOf, h.versions, h.executed]

theorem nodup_versions (hdistinct : Distinct sortNumber w.directory) :
    ((inOrder w.directory).map fun entry => version entry.fileName).Nodup := by
  apply hdistinct.nodup_inOrder.map_on
  intro entry hentry other hother heq
  have hentry := List.mem_filter.mp (mem_inOrder_iff.mp hentry)
  have hother := List.mem_filter.mp (mem_inOrder_iff.mp hother)
  exact List.inj_on_of_nodup_map hdistinct.fileNames hentry.1 hother.1
    (version_injective hentry.2 hother.2 heq)

/-- What a run commits does not depend on what earlier runs have applied. -/
theorem Consistent.committed (h : Consistent w) (hcommitted : Committed w w') :
    w'.tables = tablesOf (inOrder w.directory) := by
  obtain ⟨applied, pending, happlied⟩ := h.applied
  have hnodup := nodup_versions h.distinct
  rw [hcommitted.2, happlied.created, ← happlied.inOrder, List.foldl_append,
    foldl_applied fun entry hentry => hentry]
  rw [← happlied.inOrder] at hnodup
  exact foldl_pending hnodup

theorem Consistent.of_committed (h : Consistent w) (hcommitted : Committed w w')
    (hsession : Outside w'.session) : Consistent w' := by
  have htables := h.committed hcommitted
  refine ⟨hcommitted.1 ▸ h.distinct, hsession, inOrder w.directory, [], ?_, ?_, ?_⟩
  · rw [hcommitted.1, List.append_nil]
  · rw [htables]
    rfl
  · rw [htables]
    rfl

theorem Consistent.of_untouched (h : Consistent w) (hsame : Untouched w w')
    (hsession : Outside w'.session) : Consistent w' := by
  obtain ⟨applied, pending, hinOrder, hversions, hexecuted⟩ := h.applied
  refine ⟨hsame.1 ▸ h.distinct, hsession, applied, pending, ?_, ?_, ?_⟩
  · rw [hsame.1, hinOrder]
  · rw [hsame.2, hversions]
  · rw [hsame.2, hexecuted]

/-- The migrations that have been applied stay in front. -/
theorem Consistent.of_grows {directory : List DirectoryEntry} (h : Consistent w)
    (hgrows : Grows sortNumber w directory) :
    Consistent { w with directory := directory } := by
  obtain ⟨applied, pending, hinOrder, hversions, hexecuted⟩ := h.applied
  have hsorted := pairwise_inOrder h.distinct
  rw [← hinOrder] at hsorted
  have happlied : ∀ entry ∈ applied, entry ∈ migrationEntries w.directory :=
    fun entry hentry => mem_inOrder_iff.mp
      (hinOrder ▸ List.mem_append_left pending hentry)
  refine ⟨hgrows.distinct, h.outside, applied,
    (inOrder directory).filter (· ∉ applied), ?_, hversions, hexecuted⟩
  apply eq_inOrder hgrows.distinct
  · have hkeeps : ∀ entry ∈ applied, entry ∈ migrationEntries directory := by
      intro entry hentry
      have hmember := List.mem_filter.mp (happlied entry hentry)
      exact List.mem_filter.mpr ⟨hgrows.keeps entry hmember.1, hmember.2⟩
    have hnodup := h.distinct.nodup_inOrder
    have hdisjoint : applied.Disjoint ((inOrder directory).filter (· ∉ applied)) := by
      intro entry hentry hrest
      rw [List.mem_filter, decide_eq_true_eq] at hrest
      exact hrest.2 hentry
    rw [← hinOrder] at hnodup
    rw [List.perm_ext_iff_of_nodup
      (hnodup.of_append_left.append (hgrows.distinct.nodup_inOrder.filter _)
        hdisjoint) hgrows.distinct.nodup_migrationEntries]
    intro entry
    rw [List.mem_append, List.mem_filter, decide_eq_true_eq, mem_inOrder_iff]
    by_cases hentry : entry ∈ applied
    · simp [hentry, hkeeps entry hentry]
    · simp [hentry]
  · rw [List.pairwise_append]
    refine ⟨(List.pairwise_append.mp hsorted).1,
      (pairwise_inOrder hgrows.distinct).filter _, ?_⟩
    intro entry hentry other hother
    rw [List.mem_filter, decide_eq_true_eq] at hother
    have hmember := mem_inOrder_iff.mp hother.1
    by_cases hold : other ∈ w.directory
    · have hpending : other ∈ pending := by
        have hmem : other ∈ inOrder w.directory :=
          mem_inOrder_iff.mpr (List.mem_filter.mpr
            ⟨hold, (List.mem_filter.mp hmember).2⟩)
        rw [← hinOrder, List.mem_append] at hmem
        exact hmem.resolve_left hother.2
      exact (List.pairwise_append.mp hsorted).2.2 entry hentry other hpending
    · apply hgrows.later other hmember hold entry (happlied entry hentry)
      rw [hversions]
      exact List.mem_map_of_mem hentry

theorem Consistent.runs (h : Consistent w) {directory : JsString}
    {trace : List (Async.Answered MigrationCall MigrationCall.Answer Thrown)}
    {result : Except Thrown Unit}
    (hexec : (runMigrations directory).Executes MigrationCall.Exec w trace result
      w') : Tried w w' result ∧ Outside w'.session :=
  (outline_runMigrations h.distinct h.outside).settles hexec

theorem Consistent.of_run (h : Consistent w) {result : Except Thrown Unit}
    (htried : Tried w w' result ∧ Outside w'.session) : Consistent w' := by
  cases result with
  | ok _ => exact h.of_committed (htried.1.2 rfl).1 htried.2
  | error error => exact h.of_untouched (htried.1.1 error rfl) htried.2

/-- Wherever a run is cut off, it has committed everything or nothing. -/
theorem Consistent.interrupted (h : Consistent w) {directory : JsString}
    {trace : List (Async.Answered MigrationCall MigrationCall.Answer Thrown)}
    (hcut : (runMigrations directory).Interrupted MigrationCall.Exec w trace
      w') : Untouched w w' ∨ Committed w w' := by
  obtain ⟨rest, result, hrun⟩ := hcut.run
  obtain ⟨hcall, hsettled⟩ :=
    (outline_runMigrations h.distinct h.outside).interrupted hrun hcut.served
  cases rest with
  | cons answered rest => exact (hcall answered rest rfl).1
  | nil =>
      obtain ⟨htried, _⟩ := hsettled rfl
      cases result with
      | ok _ => exact .inr (htried.2 rfl).1
      | error error => exact .inl (htried.1 error rfl)

theorem History.consistent (h : History sortNumber w) : Consistent w := by
  induction h with
  | @fresh directory hdistinct =>
      exact ⟨hdistinct, .inr rfl, [], inOrder directory, rfl, rfl, rfl⟩
  | grown _ hgrows ih => exact ih.of_grows hgrows
  | called _ hexec ih => exact ih.of_run (ih.runs hexec)
  | interrupted _ hcut ih =>
      rcases ih.interrupted hcut with hsame | hcommitted
      · exact ih.of_untouched hsame (.inr rfl)
      · exact ih.of_committed hcommitted (.inr rfl)

/-- The scripts that have been executed are those of the first files in
numerical order, and `schema_migrations` lists exactly these. -/
def InitialSegment (w : MigrationStore) : Prop :=
  ∃ applied pending : List DirectoryEntry,
    (applied ++ pending).Perm (migrationEntries w.directory) ∧
    (applied ++ pending).Pairwise (fun left right =>
      numericPrefix left.fileName < numericPrefix right.fileName) ∧
    w.tables.executed = applied.map DirectoryEntry.contents ∧
    versions w.tables = applied.map fun entry => version entry.fileName

theorem Consistent.initialSegment (h : Consistent w) : InitialSegment w := by
  obtain ⟨applied, pending, hinOrder, hversions, hexecuted⟩ := h.applied
  refine ⟨applied, pending, ?_, ?_, hexecuted, hversions⟩
  · rw [hinOrder]
    exact perm_inOrder _
  · rw [hinOrder]
    exact (pairwise_inOrder h.distinct).imp lt_of_toNumber_lt

/-- The store of a database without any tables, over the same directory. -/
def fresh (w : MigrationStore) : MigrationStore :=
  { w with tables := ⟨none, []⟩, session := .lost }

/-- What one more call does. -/
structure Composes (w : MigrationStore) : Prop where
  initialSegment : InitialSegment w
  failed : ∀ directory trace error w',
    (runMigrations directory).Executes MigrationCall.Exec w trace (.error error)
      w' → w'.tables = w.tables
  asFresh : ∀ directory trace w',
    (runMigrations directory).Executes MigrationCall.Exec w trace (.ok ()) w' →
      (∃ w'', (runMigrations directory).Reaches MigrationCall.Exec (fresh w)
        (.ok ()) w'') ∧
      ∀ directory' trace' w'', (runMigrations directory').Executes
        MigrationCall.Exec (fresh w) trace' (.ok ()) w'' →
          w''.tables = w'.tables
  again : ∀ directory trace w',
    (runMigrations directory).Executes MigrationCall.Exec w trace (.ok ()) w' →
      ∀ directory' trace' result w'', (runMigrations directory').Executes
        MigrationCall.Exec w' trace' result w'' →
          (∀ answered ∈ trace', ∀ sql, answered.op ≠ .query (.script sql)) ∧
            w''.tables = w'.tables

theorem Consistent.fresh (h : Consistent w) : Consistent (fresh w) :=
  ⟨h.distinct, .inr rfl, [], inOrder w.directory, rfl, rfl, rfl⟩

/-- A second run finds every version in `schema_migrations`. -/
theorem Consistent.again (h : Consistent w) (hcommitted : Committed w w')
    (h' : Consistent w') {directory : JsString}
    {trace : List (Async.Answered MigrationCall MigrationCall.Answer Thrown)}
    {result : Except Thrown Unit} {w'' : MigrationStore}
    (hexec : (runMigrations directory).Executes MigrationCall.Exec w' trace result
      w'') :
    (∀ answered ∈ trace, ∀ sql, answered.op ≠ .query (.script sql)) ∧
      w''.tables = w'.tables := by
  have htables := h.committed hcommitted
  constructor
  · intro answered hmem sql hsql
    obtain ⟨middle, hcall⟩ :=
      (outline_runMigrations h'.distinct h'.outside).calls hexec answered hmem
    obtain ⟨entry, hentry, hnew⟩ := hcall.2 sql hsql
    apply hnew
    rw [hcommitted.1] at hentry
    rw [htables]
    exact List.mem_map.mpr ⟨entry, mem_inOrder_iff.mpr hentry, rfl⟩
  · obtain ⟨htried, _⟩ := h'.runs hexec
    cases result with
    | error error => exact (htried.1 error rfl).2
    | ok _ => rw [h'.committed (htried.2 rfl).1, htables, hcommitted.1]

/-- Migration runs compose: whatever runs have been made, failed or cut off, one
more call does what a run over the directory does. -/
theorem runMigrations_composes (h : History sortNumber w) : Composes w := by
  have hw := h.consistent
  refine ⟨hw.initialSegment, ?_, ?_, ?_⟩
  · intro directory trace error w' hexec
    exact ((hw.runs hexec).1.1 error rfl).2
  · intro directory trace w' hexec
    have hcommitted := ((hw.runs hexec).1.2 rfl).1
    have hentries : ∀ entry ∈ inOrder w.directory, entry ∈ w.directory :=
      fun entry hentry => List.mem_of_mem_filter (mem_inOrder_iff.mp hentry)
    have hfresh := reaches_runMigrations (w := Migrations.fresh w) directory
      (.refl _) (sortFileNames_eq hw.distinct (.refl _)) hentries (.inr rfl)
    refine ⟨⟨_, hfresh⟩, fun directory' trace' w'' hexec' => ?_⟩
    have hcommitted' := ((hw.fresh.runs hexec').1.2 rfl).1
    rw [hw.fresh.committed hcommitted', hw.committed hcommitted]
    rfl
  · intro directory trace w' hexec directory' trace' result w'' hexec'
    have htried := hw.runs hexec
    exact hw.again (htried.1.2 rfl).1 (hw.of_run htried) hexec'

def sampleDirectory : List DirectoryEntry :=
  [⟨js "1000_add_index.sql", js "CREATE INDEX"⟩,
    ⟨js "999_create_table.sql", js "CREATE TABLE"⟩]

theorem distinct_sampleDirectory : Distinct sortNumber sampleDirectory where
  fileNames := by decide
  prefixes := by decide +kernel

theorem runMigrations_composes_sampleDirectory :
    Composes ⟨sampleDirectory, ⟨some [js "999_create_table", js "1000_add_index"],
      [js "CREATE TABLE", js "CREATE INDEX"]⟩, .idle⟩ := by
  have hsorted : sortFileNames ((sampleDirectory.map
      DirectoryEntry.fileName).filter isMigrationFile) =
      sampleDirectory.reverse.map DirectoryEntry.fileName := by decide +kernel
  obtain ⟨trace, hexec⟩ := reaches_runMigrations
    (w := ⟨sampleDirectory, ⟨none, []⟩, .lost⟩) (js "migrations") (.refl _) hsorted
    (by simp) (.inr rfl)
  exact runMigrations_composes (.called (.fresh distinct_sampleDirectory) hexec)

/-- Two prefixes that are one number: the greater is enumerated first. -/
def roundedDirectory : List DirectoryEntry :=
  [⟨js "9007199254740993_add_index.sql", js "CREATE INDEX"⟩,
    ⟨js "9007199254740992_create_table.sql", js "CREATE TABLE"⟩]

theorem distinct_roundedDirectory : Distinct numericPrefix roundedDirectory where
  fileNames := by decide
  prefixes := by decide +kernel

/-- A run over them executes the greater prefix first. -/
theorem rounded_prefixes_out_of_order :
    ∃ w, History numericPrefix w ∧ ¬InitialSegment w := by
  have hsorted : sortFileNames ((roundedDirectory.map
      DirectoryEntry.fileName).filter isMigrationFile) =
      roundedDirectory.map DirectoryEntry.fileName := by decide +kernel
  obtain ⟨trace, hexec⟩ := reaches_runMigrations
    (w := ⟨roundedDirectory, ⟨none, []⟩, .lost⟩) (js "migrations") (.refl _) hsorted
    (by simp) (.inr rfl)
  refine ⟨_, .called (.fresh distinct_roundedDirectory) hexec, ?_⟩
  rintro ⟨applied, pending, hperm, hpairwise, hexecuted, _⟩
  have hscripts : applied.map DirectoryEntry.contents =
      [js "CREATE INDEX", js "CREATE TABLE"] :=
    hexecuted.symm.trans (by decide)
  obtain ⟨first, rest, rfl, hfirst, hrest⟩ := List.map_eq_cons_iff.mp hscripts
  obtain ⟨second, rest, rfl, hsecond, _⟩ := List.map_eq_cons_iff.mp hrest
  have hentries : ∀ entry ∈ migrationEntries roundedDirectory,
      (entry.contents = js "CREATE INDEX" →
        numericPrefix entry.fileName = 9007199254740993) ∧
      (entry.contents = js "CREATE TABLE" →
        numericPrefix entry.fileName = 9007199254740992) := by decide
  have hgreater := (hentries first (hperm.mem_iff.mp (by simp))).1 hfirst
  have hless := (hentries second (hperm.mem_iff.mp (by simp))).2 hsecond
  have hlt := List.rel_of_pairwise_cons hpairwise
    (List.mem_append_left pending (List.mem_cons_self (l := rest)))
  rw [hgreater, hless] at hlt
  omega

end History

end Migrations

end StatementAnalyzer
