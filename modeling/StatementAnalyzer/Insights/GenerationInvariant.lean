/-
What every step of the requests of one month keeps: only the request that holds
the lock has a generation that has not failed, and a document that can be
returned is never replaced.
-/
import StatementAnalyzer.Async.Chronicle
import StatementAnalyzer.Database.GenerationLock
import StatementAnalyzer.Insights.CachedDocument

namespace StatementAnalyzer

open Async

abbrev ApiChronicle := Chronicle ApiQuery ApiQuery.Answer Thrown

/-- The answers by which a generation, its validation, its save or its COMMIT
fails. -/
inductive FailsGeneration (input : CompactInsightsInput) :
    Answered ApiQuery ApiQuery.Answer Thrown → Prop
  | generation {analyzed : CompactInsightsInput} {error : Thrown} :
      FailsGeneration input ⟨.analyze analyzed, .error error⟩
  | validation {analyzed : CompactInsightsInput} {generated : JsValue}
      {error : Thrown} (hparse : parseAndValidateInsights
        (.object [(js "insights", generated)]) input = .error error) :
      FailsGeneration input ⟨.analyze analyzed, .ok generated⟩
  | save {saved : SaveMonthlyInsightsInput} {error : Thrown} :
      FailsGeneration input
        ⟨.client (.upsertMonthlyInsights saved), .error error⟩
  | commit {error : Thrown} :
      FailsGeneration input ⟨.client .commit, .error error⟩

/-- The request has called the analyzer. -/
def Generates (chronicle : ApiChronicle) (t : Tid) : Prop :=
  ∃ input answer, .called t ⟨.analyze input, answer⟩ ∈ chronicle

/-- The generation of the request has failed, or its process has died. -/
def GenerationFailed (input : CompactInsightsInput) (chronicle : ApiChronicle)
    (t : Tid) : Prop :=
  .crashed t ∈ chronicle ∨
    ∃ answered, .called t answered ∈ chronicle ∧ FailsGeneration input answered

namespace InsightsWorld

variable {pg : DateCast} {jsonb : Jsonb}
variable {reads : Tid → (q : ApiClientQuery) → q.Answer → Prop}
variable {targetMonth : JsString} {t u : Tid} {w w' : InsightsWorld}

/-- The request goes on with the transaction that holds the lock. -/
def Live (w : InsightsWorld) (t : Tid) : Prop :=
  ∃ held, w.Holds t held ∧ held.fate = .live

/-- What a step can do to the lock: everything but an upsert and the saves of
other months. -/
inductive Shifts (t : Tid) (w : InsightsWorld) : InsightsWorld → Prop
  | same : Shifts t w w
  | locked {fate : TransactionFate} (hfree : w.lock = none) :
      Shifts t w (w.setLock ⟨t, none, fate⟩)
  | altered {held : LockTransaction} {fate : TransactionFate}
      (holds : w.Holds t held) : Shifts t w (w.setLock { held with fate })
  | ended {held : LockTransaction} (holds : w.Holds t held) : Shifts t w w.unlock
  | committed {held : LockTransaction} (holds : w.Holds t held) :
      Shifts t w (w.commit held)

theorem Rejects.shifts {q : ApiClientQuery} (h : Rejects pg jsonb t w q w')
    (hq : ∀ input, q ≠ .upsertMonthlyInsights input) : w.Shifts t w' := by
  cases h with
  | untouched _ => exact .same
  | locked hfree => exact .locked hfree
  | abandoned holds => exact .altered holds
  | lost holds => exact .ended holds
  | written holds _ => exact absurd rfl (hq _)
  | committed holds => exact .committed holds
  | committing holds => exact .altered holds
  | committedLate holds _ => exact .committed holds

theorem Serves.shifts {op : ApiQuery} {answer : Except Thrown op.Answer}
    (h : Serves pg jsonb reads t w op answer w')
    (hop : ∀ input, op ≠ .client (.upsertMonthlyInsights input)) :
    w.Shifts t w' := by
  cases h with
  | read _ _ | selected _ | ended _ _ | now | elsewhere _ => exact .same
  | locked hfree => exact .locked hfree
  | upserted holds _ => exact absurd rfl (hop _)
  | committed holds => exact .committed holds
  | rolledBack holds => exact .ended holds
  | committedLate holds _ => exact .committed holds
  | rejected hrejects =>
      apply hrejects.shifts
      intro input hq
      exact hop input (congrArg ApiQuery.client hq)

theorem Crashes.shifts (h : w.Crashes t w') : w.Shifts t w' := by
  cases h with
  | untouched _ => exact .same
  | abandoned holds => exact .altered holds

/-- Who holds the lock is not disturbed by others. -/
theorem Shifts.eq_of_holds (h : w.Shifts t w') {held : LockTransaction}
    (holds : w.Holds u held) (htu : t ≠ u) : w' = w := by
  have hother : ∀ {held'}, ¬w.Holds t held' := by
    intro held' holds'
    have heq := Option.some.inj (holds.1.symm.trans holds'.1)
    exact htu (holds'.2.symm.trans (heq ▸ holds.2))
  cases h with
  | same => rfl
  | locked hfree => exact absurd (holds.1.symm.trans hfree) nofun
  | altered holds' | ended holds' | committed holds' => exact absurd holds' hother

/-- The saves are only added to, and the row of the month changes with a save
only. -/
structure Grows (pg : DateCast) (targetMonth : JsString)
    (w w' : InsightsWorld) : Prop where
  saves : w.saves <:+ w'.saves
  row : w'.saves = w.saves →
    w'.table.row pg targetMonth = w.table.row pg targetMonth

theorem Grows.of_eq (htable : w'.table = w.table) (hsaves : w'.saves = w.saves) :
    w.Grows pg targetMonth w' := by
  refine ⟨?_, fun _ => by rw [htable]⟩
  rw [hsaves]

theorem Grows.refl (w : InsightsWorld) : w.Grows pg targetMonth w :=
  .of_eq rfl rfl

theorem Grows.trans {w'' : InsightsWorld} (h : w.Grows pg targetMonth w')
    (h' : w'.Grows pg targetMonth w'') : w.Grows pg targetMonth w'' := by
  refine ⟨h.saves.trans h'.saves, fun hsaves => ?_⟩
  have hmiddle : w'.saves = w.saves :=
    (h.saves.eq_of_length_le (hsaves ▸ h'.saves.length_le)).symm
  rw [h'.row (hsaves.trans hmiddle.symm), h.row hmiddle]

theorem Grows.saved (h : w.Grows pg targetMonth w') (hsaves : w.saves ≠ []) :
    w'.saves ≠ [] := by
  intro hnone
  exact hsaves (List.suffix_nil.mp (hnone ▸ h.saves))

theorem grows_commit (w : InsightsWorld) (held : LockTransaction) :
    w.Grows pg targetMonth (w.commit held) := by
  obtain ⟨owner, draft, fate⟩ := held
  cases draft with
  | none => exact .of_eq rfl rfl
  | some written =>
      refine ⟨List.suffix_cons .., fun hsaves => ?_⟩
      exact absurd hsaves (List.cons_ne_self _ _)

theorem Shifts.grows (h : w.Shifts t w') : w.Grows pg targetMonth w' := by
  cases h with
  | same | locked _ | altered _ | ended _ => exact .of_eq rfl rfl
  | committed _ => exact grows_commit w _

/-- An upsert writes to its own transaction only. -/
inductive Writes (pg : DateCast) (jsonb : Jsonb) (t : Tid) (w : InsightsWorld)
    (input : SaveMonthlyInsightsInput) : InsightsWorld → Prop
  | mk {held : LockTransaction} {day : CalendarDay}
      {record : MonthlyInsightsCacheRecord} {fate : TransactionFate}
      (holds : w.Holds t held) (hwrites : input.Writes pg jsonb day record) :
      Writes pg jsonb t w input
        (w.setLock { held with draft := some (day, record), fate })

theorem Serves.shifts_or_writes {input : SaveMonthlyInsightsInput}
    {answer : Except Thrown Unit}
    (h : Serves pg jsonb reads t w (.client (.upsertMonthlyInsights input)) answer
      w') : w.Shifts t w' ∨ w.Writes pg jsonb t input w' := by
  cases h with
  | upserted holds hwrites => exact .inr (.mk holds hwrites)
  | read hq _ => cases hq
  | ended _ _ | elsewhere _ => exact .inl .same
  | rejected hrejects =>
      cases hrejects with
      | untouched _ => exact .inl .same
      | abandoned holds => exact .inl (.altered holds)
      | lost holds => exact .inl (.ended holds)
      | @written _ held day record holds hwrites =>
          have hwritten : w.Writes pg jsonb t input (w.setLock
              ⟨held.owner, some (day, record), held.abandon.fate⟩) :=
            .mk holds hwrites
          exact .inr hwritten

theorem Serves.select_eq {lookup : MonthlyInsightsCacheLookup}
    {rows : List MonthlyInsightsCacheRecord}
    (h : Serves pg jsonb reads t w (.client (.selectMonthlyInsights lookup))
      (.ok rows) w') : (w.visible t).select pg lookup = some rows := by
  cases h with
  | selected hselect => exact hselect
  | read hq _ | elsewhere hq => cases hq
  | ended hq _ => exact absurd hq (by simp)

theorem visible_eq (hdraft : ∀ held, w.Holds t held → held.draft = none) :
    w.visible t = w.table := by
  rw [visible]
  cases hlock : w.lock with
  | none => rfl
  | some held =>
      by_cases howner : held.owner = t
      · simp only [hdraft held ⟨hlock, howner⟩, ite_self]
      · simp only [if_neg howner]

theorem Serves.lock_live {lockKey : JsString}
    (h : Serves pg jsonb reads t w (.client (.advisoryLock lockKey)) (.ok ())
      w') : w'.Live t := by
  cases h with
  | locked _ => exact ⟨_, ⟨rfl, rfl⟩, rfl⟩
  | read hq _ | elsewhere hq => cases hq
  | ended hq _ => exact absurd hq (by simp)

theorem Serves.commit_cases {answer : Except Thrown Unit}
    (h : Serves pg jsonb reads t w (.client .commit) answer w') :
    (∃ held, w.Holds t held ∧ answer = .ok () ∧ w' = w.commit held) ∨
      (∀ held, ¬w.Holds t held) ∨ ∃ error, answer = .error error := by
  cases h with
  | committed holds => exact .inl ⟨_, holds, rfl, rfl⟩
  | read hq _ | elsewhere hq => cases hq
  | ended _ hfree => exact .inr (.inl hfree)
  | rejected _ => exact .inr (.inr ⟨_, rfl⟩)

theorem Serves.upsert_cases {input : SaveMonthlyInsightsInput}
    {answer : Except Thrown Unit}
    (h : Serves pg jsonb reads t w (.client (.upsertMonthlyInsights input)) answer
      w') :
    (∃ held day record, w.Holds t held ∧ input.Writes pg jsonb day record ∧
      answer = .ok () ∧
      w' = w.setLock { held with draft := some (day, record) }) ∨
      ∃ error, answer = .error error := by
  cases h with
  | upserted holds hwrites => exact .inl ⟨_, _, _, holds, hwrites, rfl, rfl⟩
  | read hq _ | elsewhere hq => cases hq
  | ended hq _ => exact absurd hq (by simp)
  | rejected _ => exact .inr ⟨_, rfl⟩

/-- What a step of another request means to a request. -/
structure Rely (pg : DateCast) (targetMonth : JsString) (t : Tid)
    (w w' : InsightsWorld) : Prop where
  grows : w.Grows pg targetMonth w'
  live : w.Live t → w'.lock = w.lock ∧ w'.saves = w.saves

theorem Rely.refl (t : Tid) (w : InsightsWorld) : w.Rely pg targetMonth t w :=
  ⟨.refl w, fun _ => ⟨rfl, rfl⟩⟩

theorem Rely.trans {w'' : InsightsWorld} (h : w.Rely pg targetMonth t w')
    (h' : w'.Rely pg targetMonth t w'') : w.Rely pg targetMonth t w'' := by
  refine ⟨h.grows.trans h'.grows, fun hlive => ?_⟩
  obtain ⟨hlock, hsaves⟩ := h.live hlive
  obtain ⟨held, ⟨hheld, howner⟩, hfate⟩ := hlive
  obtain ⟨hlock', hsaves'⟩ := h'.live ⟨held, ⟨hlock.trans hheld, howner⟩, hfate⟩
  exact ⟨hlock'.trans hlock, hsaves'.trans hsaves⟩

theorem Rely.kept (h : w.Rely pg targetMonth t w') (hlive : w.Live t) :
    w'.Live t := by
  have hlock := (h.live hlive).1
  obtain ⟨held, ⟨hheld, howner⟩, hfate⟩ := hlive
  exact ⟨held, ⟨hlock.trans hheld, howner⟩, hfate⟩

theorem Shifts.rely (h : w.Shifts u w') (htu : u ≠ t) :
    w.Rely pg targetMonth t w' := by
  refine ⟨h.grows, fun ⟨held, holds, _⟩ => ?_⟩
  rw [h.eq_of_holds holds htu]
  exact ⟨rfl, rfl⟩

theorem Writes.rely {input : SaveMonthlyInsightsInput}
    (h : w.Writes pg jsonb u input w') (htu : u ≠ t) :
    w.Rely pg targetMonth t w' := by
  obtain ⟨⟨hheld, howner⟩, _⟩ := h
  refine ⟨.of_eq rfl rfl, fun ⟨held', ⟨hheld', howner'⟩, _⟩ => ?_⟩
  have heq := Option.some.inj (hheld.symm.trans hheld')
  exact absurd (howner.symm.trans (heq ▸ howner')) htu

theorem Serves.rely {op : ApiQuery} {answer : Except Thrown op.Answer}
    (h : Serves pg jsonb reads u w op answer w') (htu : u ≠ t) :
    w.Rely pg targetMonth t w' := by
  by_cases hop : ∃ input, op = .client (.upsertMonthlyInsights input)
  · obtain ⟨input, rfl⟩ := hop
    rcases h.shifts_or_writes with hshifts | hwrites
    · exact hshifts.rely htu
    · exact hwrites.rely htu
  · exact (h.shifts fun input heq => hop ⟨input, heq⟩).rely htu

theorem Serves.grows {op : ApiQuery} {answer : Except Thrown op.Answer}
    (h : Serves pg jsonb reads t w op answer w') : w.Grows pg targetMonth w' :=
  (h.rely t.lt_succ_self.ne).grows

theorem Drifts.rely (h : w.Drifts pg targetMonth w') :
    w.Rely pg targetMonth t w' := by
  cases h with
  | others hrow => exact ⟨⟨List.suffix_rfl, fun _ => hrow⟩, fun _ => ⟨rfl, rfl⟩⟩
  | locked hfree =>
      refine ⟨.of_eq rfl rfl, fun ⟨held, ⟨hheld, _⟩, _⟩ => ?_⟩
      exact absurd (hheld.symm.trans hfree) nofun
  | ended hheld hfate =>
      refine ⟨.of_eq rfl rfl, fun ⟨held', ⟨hheld', _⟩, hlive⟩ => ?_⟩
      have heq := Option.some.inj (hheld.symm.trans hheld')
      exact absurd (heq ▸ hlive) hfate
  | committed hheld hfate =>
      refine ⟨grows_commit w _, fun ⟨held', ⟨hheld', _⟩, hlive⟩ => ?_⟩
      have heq := Option.some.inj (hheld.symm.trans hheld')
      rw [heq, hlive] at hfate
      cases hfate

end InsightsWorld

namespace InsightsMonth

variable (m : InsightsMonth)

def row (table : InsightsTable) : Option MonthlyInsightsCacheRecord :=
  table.row m.pg m.lookup.targetMonth

/-- What the service makes of a lookup. -/
def answer (table : InsightsTable) :
    Except Thrown (Option MonthlyInsightsResponse) :=
  getCachedResponse m.year m.month m.input
    ((m.row table).filter fun record => record.matches m.lookup)

/-- The row can be committed: the service returns it to a lookup. -/
structure Returnable (day : CalendarDay) (record : MonthlyInsightsCacheRecord) :
    Prop where
  cast : m.pg.cast m.lookup.targetMonth = some day
  isMatch : record.matches m.lookup = true
  answered : ∃ response,
    getCachedResponse m.year m.month m.input (some record) = .ok (some response)

/-- One save at most is committed, and only where the rows before had no
document to return. -/
structure Sound (w : InsightsWorld) : Prop where
  fresh : w.saves = [] → m.row w.table = m.row m.initial
  saved : ∀ t rest, w.saves = t :: rest → rest = [] ∧
    m.answer m.initial = .ok none ∧
    ∃ response, m.answer w.table = .ok (some response)
  draft : ∀ held day record, w.lock = some held →
    held.draft = some (day, record) →
      w.saves = [] ∧ m.answer m.initial = .ok none ∧ m.Returnable day record

variable {m} {w w' : InsightsWorld} {t : Tid}

theorem answer_update {day : CalendarDay} {record : MonthlyInsightsCacheRecord}
    (h : m.Returnable day record) (table : InsightsTable) :
    m.answer (Function.update table day (some record)) =
      getCachedResponse m.year m.month m.input (some record) := by
  rw [answer, row, InsightsTable.row, h.cast, Option.bind_some,
    Function.update_self, Option.filter_some, if_pos h.isMatch]

/-- The document of a save that is committed can be returned from then on. -/
theorem Sound.commit (h : m.Sound w) {held : LockTransaction}
    (hheld : w.lock = some held) : m.Sound (w.commit held) := by
  obtain ⟨owner, draft, fate⟩ := held
  cases draft with
  | none => exact ⟨h.fresh, h.saved, nofun⟩
  | some written =>
      obtain ⟨day, record⟩ := written
      obtain ⟨hsaves, hinitial, hreturnable⟩ := h.draft _ day record hheld rfl
      refine ⟨fun hnone => absurd hnone (List.cons_ne_nil _ _), ?_, nofun⟩
      intro t rest hcons
      obtain ⟨_, hrest⟩ := List.cons_eq_cons.mp hcons
      refine ⟨hrest.symm.trans hsaves, hinitial, ?_⟩
      obtain ⟨response, hresponse⟩ := hreturnable.answered
      exact ⟨response, (answer_update hreturnable _).trans hresponse⟩

theorem Sound.shifts (h : m.Sound w) (hshifts : w.Shifts t w') : m.Sound w' := by
  cases hshifts with
  | same => exact h
  | locked _ =>
      refine ⟨h.fresh, h.saved, fun held day record hheld hdraft => ?_⟩
      obtain rfl := Option.some.inj hheld
      cases hdraft
  | altered holds =>
      refine ⟨h.fresh, h.saved, fun held day record hheld hdraft => ?_⟩
      obtain rfl := Option.some.inj hheld
      exact h.draft _ day record holds.1 hdraft
  | ended _ => exact ⟨h.fresh, h.saved, nofun⟩
  | committed holds => exact h.commit holds.1

theorem Sound.drifts (h : m.Sound w)
    (hdrifts : w.Drifts m.pg m.lookup.targetMonth w') : m.Sound w' := by
  cases hdrifts with
  | @others table hrow =>
      have hanswer : m.answer table = m.answer w.table := by
        rw [answer, answer, row, hrow]
        rfl
      refine ⟨fun hnone => hrow.trans (h.fresh hnone), ?_, h.draft⟩
      intro t rest hcons
      rw [hanswer]
      exact h.saved t rest hcons
  | locked hfree => exact h.shifts (.locked hfree)
  | ended hheld _ => exact h.shifts (.ended ⟨hheld, rfl⟩)
  | committed hheld _ => exact h.commit hheld

/-- A row is written where nothing could be returned. -/
theorem Sound.writes (h : m.Sound w) (hanswer : m.answer w.table = .ok none)
    {held : LockTransaction} {day : CalendarDay}
    {record : MonthlyInsightsCacheRecord} {fate : TransactionFate}
    (hreturnable : m.Returnable day record) :
    m.Sound (w.setLock { held with draft := some (day, record), fate }) := by
  refine ⟨h.fresh, h.saved, fun held' day' record' hheld' hdraft => ?_⟩
  obtain rfl := Option.some.inj hheld'
  cases hdraft
  cases hsaves : w.saves with
  | nil =>
      refine ⟨hsaves, ?_, hreturnable⟩
      rw [← hanswer, answer, answer, h.fresh hsaves]
  | cons t rest =>
      obtain ⟨_, _, response, hresponse⟩ := h.saved t rest hsaves
      rw [hanswer] at hresponse
      cases hresponse

/-- What can be returned is not replaced. -/
theorem Sound.answer_eq (h : m.Sound w) (h' : m.Sound w')
    (hgrows : w.Grows m.pg m.lookup.targetMonth w')
    {response : MonthlyInsightsResponse}
    (hanswer : m.answer w.table = .ok (some response)) :
    m.answer w'.table = .ok (some response) := by
  by_cases hsame : w'.saves = w.saves
  · rw [← hanswer, answer, answer, row, row, hgrows.row hsame]
  · cases hsaves' : w'.saves with
    | nil =>
        have hnil := List.suffix_nil.mp (hsaves' ▸ hgrows.saves)
        exact absurd (hsaves'.trans hnil.symm) hsame
    | cons t rest =>
        obtain ⟨rfl, hinitial, _⟩ := h'.saved t rest hsaves'
        have hsuffix := hgrows.saves
        rw [hsaves', List.suffix_cons_iff] at hsuffix
        rcases hsuffix with heq | hnil
        · exact absurd (hsaves'.trans heq.symm) hsame
        · have hfresh := h.fresh (List.suffix_nil.mp hnil)
          rw [answer, hfresh] at hanswer
          rw [answer, hanswer] at hinitial
          cases hinitial

/-- The call has not failed, it is no generation, and if it was a lookup, there
was nothing to return. -/
structure Missed (m : InsightsMonth)
    (answered : Answered ApiQuery ApiQuery.Answer Thrown) : Prop where
  answer : ∃ value, answered.answer = .ok value
  early : ∀ input, answered.op ≠ .analyze input
  lookup : ∀ lookup rows,
    answered = ⟨.client (.selectMonthlyInsights lookup), .ok rows⟩ →
      lookup = m.lookup ∧
        getCachedResponse m.year m.month m.input rows.head? = .ok none

/-- Whoever has called the analyzer has failed or holds the lock, until a save
is committed; and the analyzer is called last, after two misses. -/
structure Inv (m : InsightsMonth) (w : InsightsWorld × ApiChronicle) : Prop where
  sound : m.Sound w.1
  author : ∀ held, w.1.lock = some held → held.draft ≠ none →
    Generates w.2 held.owner
  pending : ∀ t, Generates w.2 t →
    GenerationFailed m.input w.2 t ∨ w.1.Live t ∨ w.1.saves ≠ []
  once : ∀ t u, t ≠ u → Generates w.2 t → Generates w.2 u →
    GenerationFailed m.input w.2 t ∨ GenerationFailed m.input w.2 u
  early : ∀ t, Each (fun before answered =>
    (∃ input, answered.op = .analyze input) →
      ∀ earlier ∈ before, m.Missed earlier) (w.2.calls t)

theorem live_unique {u : Tid} (h : w.Live t) (h' : w.Live u) : t = u := by
  obtain ⟨held, ⟨hheld, howner⟩, _⟩ := h
  obtain ⟨held', ⟨hheld', howner'⟩, _⟩ := h'
  have heq := Option.some.inj (hheld.symm.trans hheld')
  exact howner.symm.trans (heq ▸ howner')

section Steps

variable {chronicle chronicle' : ApiChronicle} {u : Tid}
variable {reads : Tid → (q : ApiClientQuery) → q.Answer → Prop}

theorem generates_mono (hlonger : chronicle <+: chronicle')
    (h : Generates chronicle t) : Generates chronicle' t := by
  obtain ⟨input, answer, hmem⟩ := h
  exact ⟨input, answer, hlonger.subset hmem⟩

theorem generationFailed_mono {input : CompactInsightsInput}
    (hlonger : chronicle <+: chronicle')
    (h : GenerationFailed input chronicle t) :
    GenerationFailed input chronicle' t := by
  rcases h with hcrashed | ⟨answered, hmem, hfails⟩
  · exact .inl (hlonger.subset hcrashed)
  · exact .inr ⟨answered, hlonger.subset hmem, hfails⟩

theorem generates_called {op : ApiQuery} {answer : Except Thrown op.Answer}
    (h : Generates (chronicle ++ [.called t ⟨op, answer⟩]) u) :
    Generates chronicle u ∨ (u = t ∧ ∃ input, op = .analyze input) := by
  obtain ⟨input, value, hmem⟩ := h
  rcases List.mem_append.mp hmem with hold | hnew
  · exact .inl ⟨input, value, hold⟩
  · cases List.mem_singleton.mp hnew
    exact .inr ⟨rfl, input, rfl⟩

theorem generates_crashed (h : Generates (chronicle ++ [.crashed t]) u) :
    Generates chronicle u := by
  obtain ⟨input, value, hmem⟩ := h
  rcases List.mem_append.mp hmem with hold | hnew
  · exact ⟨input, value, hold⟩
  · cases List.mem_singleton.mp hnew

/-- A step that calls no analyzer keeps the invariant if it leaves no request
behind whose generation is still open. -/
theorem Inv.next (h : m.Inv (w, chronicle)) (hsound : m.Sound w')
    (hauthor : ∀ held, w'.lock = some held → held.draft ≠ none →
      Generates chronicle held.owner)
    (hlonger : chronicle <+: chronicle')
    (hgenerates : ∀ u, Generates chronicle' u → Generates chronicle u)
    (hgrows : w.Grows m.pg m.lookup.targetMonth w')
    (hpending : ∀ u, Generates chronicle u → w.Live u →
      GenerationFailed m.input chronicle' u ∨ w'.Live u ∨ w'.saves ≠ [])
    (hearly : ∀ u, Each (fun before answered =>
      (∃ input, answered.op = .analyze input) →
        ∀ earlier ∈ before, m.Missed earlier) (chronicle'.calls u)) :
    m.Inv (w', chronicle') := by
  refine ⟨hsound, fun held hheld hdraft => ?_, fun u hgen => ?_, ?_, hearly⟩
  · exact generates_mono hlonger (hauthor held hheld hdraft)
  · rcases h.pending u (hgenerates u hgen) with hfailed | hlive | hsaved
    · exact .inl (generationFailed_mono hlonger hfailed)
    · exact hpending u (hgenerates u hgen) hlive
    · exact .inr (.inr (hgrows.saved hsaved))
  · intro t u htu hgen hgen'
    rcases h.once t u htu (hgenerates t hgen) (hgenerates u hgen') with
      hfailed | hfailed
    · exact .inl (generationFailed_mono hlonger hfailed)
    · exact .inr (generationFailed_mono hlonger hfailed)

/-- Only its owner writes to a transaction. -/
theorem Inv.author_shifts (h : m.Inv (w, chronicle)) (hshifts : w.Shifts t w') :
    ∀ held, w'.lock = some held → held.draft ≠ none →
      Generates chronicle held.owner := by
  intro held hheld hdraft
  cases hshifts with
  | same => exact h.author held hheld hdraft
  | locked _ =>
      obtain rfl := Option.some.inj hheld
      exact absurd rfl hdraft
  | @altered held' fate holds =>
      obtain rfl := Option.some.inj hheld
      exact h.author held' holds.1 hdraft
  | ended _ => cases hheld
  | @committed held' _ =>
      obtain ⟨owner, draft, fate⟩ := held'
      cases draft <;> cases hheld

theorem Inv.early_called (h : m.Inv (w, chronicle)) {op : ApiQuery}
    {answer : Except Thrown op.Answer}
    (hop : (∃ input, op = .analyze input) →
      ∀ earlier ∈ chronicle.calls t, m.Missed earlier) (u : Tid) :
    Each (fun before answered => (∃ input, answered.op = .analyze input) →
      ∀ earlier ∈ before, m.Missed earlier)
      (Chronicle.calls (chronicle ++ [.called t ⟨op, answer⟩]) u) := by
  by_cases hut : u = t
  · subst hut
    rw [Chronicle.calls_called_self]
    exact (h.early u).concat hop
  · rw [Chronicle.calls_called_ne hut]
    exact h.early u

/-- A call other than the analyzer's keeps the invariant, if afterwards the
generation of the request is accounted for. -/
theorem Inv.called (h : m.Inv (w, chronicle)) {op : ApiQuery}
    {answer : Except Thrown op.Answer}
    (hserves : w.Serves m.pg m.jsonb reads t op answer w')
    (hop : ∀ input, op ≠ .analyze input) (hsound : m.Sound w')
    (hauthor : ∀ held, w'.lock = some held → held.draft ≠ none →
      Generates chronicle held.owner)
    (hpending : Generates chronicle t →
      GenerationFailed m.input (chronicle ++ [.called t ⟨op, answer⟩]) t ∨
        w'.Live t ∨ w'.saves ≠ []) :
    m.Inv (w', chronicle ++ [.called t ⟨op, answer⟩]) := by
  apply h.next hsound hauthor (List.prefix_append ..)
  · intro u hgen
    rcases generates_called hgen with hold | ⟨_, input, heq⟩
    · exact hold
    · exact absurd heq (hop input)
  · exact hserves.grows
  · intro u hgen hlive
    by_cases htu : t = u
    · subst htu
      exact hpending hgen
    · have hrely : w.Rely m.pg m.lookup.targetMonth u w' := hserves.rely htu
      exact .inr (.inl (hrely.kept hlive))
  · exact h.early_called fun ⟨input, heq⟩ => absurd heq (hop input)

/-- The analyzer is called under the lock, where nothing can be returned. -/
theorem Inv.analyzed (h : m.Inv (w, chronicle)) (hlive : w.Live t)
    (hanswer : m.answer w.table = .ok none)
    (hmissed : ∀ earlier ∈ chronicle.calls t, m.Missed earlier)
    (input : CompactInsightsInput) (answer : Except Thrown JsValue) :
    m.Inv (w, chronicle ++ [.called t ⟨.analyze input, answer⟩]) := by
  have hlonger : chronicle <+:
      chronicle ++ [.called t ⟨.analyze input, answer⟩] :=
    List.prefix_append ..
  have hunsaved : w.saves = [] := by
    cases hsaves : w.saves with
    | nil => rfl
    | cons u rest =>
        obtain ⟨_, _, response, hresponse⟩ := h.sound.saved u rest hsaves
        rw [hanswer] at hresponse
        cases hresponse
  have hothers : ∀ u, u ≠ t → Generates chronicle u →
      GenerationFailed m.input chronicle u := by
    intro u hut hgen
    rcases h.pending u hgen with hfailed | hlive' | hsaved
    · exact hfailed
    · exact absurd (live_unique hlive' hlive) hut
    · exact absurd hunsaved hsaved
  refine ⟨h.sound, fun held hheld hdraft => ?_, fun u hgen => ?_, ?_,
    h.early_called fun _ => hmissed⟩
  · exact generates_mono hlonger (h.author held hheld hdraft)
  · by_cases hut : u = t
    · rw [hut]
      exact .inr (.inl hlive)
    · rcases generates_called hgen with hold | ⟨heq, _⟩
      · exact .inl (generationFailed_mono hlonger (hothers u hut hold))
      · exact absurd heq hut
  · intro u v huv hgen hgen'
    by_cases hut : u = t
    · have hvt : v ≠ t := fun heq => huv (hut.trans heq.symm)
      rcases generates_called hgen' with hold | ⟨heq, _⟩
      · exact .inr (generationFailed_mono hlonger (hothers v hvt hold))
      · exact absurd heq hvt
    · rcases generates_called hgen with hold | ⟨heq, _⟩
      · exact .inl (generationFailed_mono hlonger (hothers u hut hold))
      · exact absurd heq hut

theorem Inv.crashed (h : m.Inv (w, chronicle)) (hcrashes : w.Crashes t w') :
    m.Inv (w', chronicle ++ [.crashed t]) := by
  have hshifts := hcrashes.shifts
  apply h.next (h.sound.shifts hshifts) (h.author_shifts hshifts)
    (List.prefix_append ..) (fun u => generates_crashed) hshifts.grows
  · intro u _ hlive
    by_cases htu : t = u
    · exact .inl (.inl (by simp [htu]))
    · have hrely : w.Rely m.pg m.lookup.targetMonth u w' := hshifts.rely htu
      exact .inr (.inl (hrely.kept hlive))
  · intro u
    rw [Chronicle.calls_crashed]
    exact h.early u

theorem Inv.drifted (h : m.Inv (w, chronicle))
    (hdrifts : w.Drifts m.pg m.lookup.targetMonth w') :
    m.Inv (w', chronicle) := by
  have hauthor : ∀ held, w'.lock = some held → held.draft ≠ none →
      Generates chronicle held.owner := by
    cases hdrifts with
    | others _ => exact h.author
    | locked hfree => exact h.author_shifts (.locked hfree)
    | ended hheld _ => exact h.author_shifts (.ended ⟨hheld, rfl⟩)
    | committed hheld _ => exact h.author_shifts (.committed ⟨hheld, rfl⟩)
  have hrely : ∀ u, w.Rely m.pg m.lookup.targetMonth u w' := fun _ => hdrifts.rely
  exact h.next (h.sound.drifts hdrifts) hauthor List.prefix_rfl (fun _ => id)
    (hrely 0).grows (fun u _ hlive => .inr (.inl ((hrely u).kept hlive))) h.early

end Steps

end InsightsMonth

end StatementAnalyzer
