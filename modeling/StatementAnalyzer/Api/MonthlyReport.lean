/-
`GET /analytics/monthly` over one snapshot of the tables: what its answer says,
and that it answers 503 only where a call has failed or a number is too large.
-/
import StatementAnalyzer.Analytics.MonthlyTotals
import StatementAnalyzer.Analytics.SameReport
import StatementAnalyzer.Api.PooledEndpoints

namespace StatementAnalyzer

open Async Relational

namespace Tables

variable {db db' : Tables} {days : CalendarDay × CalendarDay}

section Same

theorem buckets_perm (key : CreateTransactionInput → JsString)
    (h : (db.source days).Perm (db'.source days)) :
    (db.buckets key days).Perm (db'.buckets key days) := by
  apply groups_map_perm (fun row : JoinedRow => key row.2) h
  intro name members members' hperm
  have hamount : amounts members = amounts members' := (hperm.map _).sum_eq
  simp only [hamount, hperm.length_eq]

/-- Two aggregates of the same lines. -/
theorem Reports.same {aggregate aggregate' : MonthlyAnalyticsAggregate}
    (hreports : db.Reports days aggregate)
    (hreports' : db'.Reports days aggregate')
    (h : (db.source days).Perm (db'.source days)) :
    aggregate.Same aggregate' where
  totalAmount := by
    rw [hreports.totalAmount, hreports'.totalAmount]
    exact (h.map _).sum_eq.symm
  transactionCount := by
    rw [hreports.transactionCount, hreports'.transactionCount, h.length_eq]
  categories := (hreports'.categories.trans
    ((buckets_perm _ h).symm.map _)).trans hreports.categories.symm
  merchants := (hreports'.merchants.trans
    ((buckets_perm _ h).symm.map _)).trans hreports.merchants.symm

end Same

section Bounds

theorem natAbs_amounts_le {bound : Nat} {rows : List JoinedRow} :
    (∀ row ∈ rows, row.2.amount.natAbs ≤ bound) →
      (amounts rows).natAbs ≤ rows.length * bound := by
  induction rows with
  | nil => exact fun _ => Nat.zero_le _
  | cons row rest ih =>
      intro hbound
      obtain ⟨hrow, hrest⟩ := List.forall_mem_cons.mp hbound
      have hsum : amounts (row :: rest) = row.2.amount + amounts rest :=
        List.sum_cons
      have hle := ih hrest
      rw [hsum, List.length_cons, Nat.add_one_mul]
      have htriangle := Int.natAbs_add_le row.2.amount (amounts rest)
      omega

/-- Lines of bounded amounts fit as long as there are few enough. -/
theorem fits_of_bounded {bound : Nat}
    (hbound : ∀ row ∈ db.source days, row.2.amount.natAbs ≤ bound)
    (hpositive : 0 < bound)
    (hcount : (db.source days).length * bound ≤ 9007199254740991) :
    db.Fits days := by
  have hsafe : ∀ rows : List JoinedRow, rows.Sublist (db.source days) →
      IsSafeInteger (amounts rows) ∧ IsSafeInteger rows.length := by
    intro rows hrows
    have hle := natAbs_amounts_le fun row hrow => hbound row (hrows.subset hrow)
    have hlength := Nat.mul_le_mul_right bound hrows.length_le
    have hone := Nat.le_mul_of_pos_right rows.length hpositive
    simp only [IsSafeInteger, Int.natAbs_natCast]
    omega
  have hbuckets : ∀ key, ∀ row ∈ db.buckets key days, row.Safe := by
    intro key row hrow
    obtain ⟨group, hgroup, rfl⟩ := List.mem_map.mp hrow
    obtain ⟨name, _, rfl⟩ := List.mem_map.mp hgroup
    exact hsafe _ List.filter_sublist
  have hall := hsafe _ (List.Sublist.refl _)
  exact ⟨hall.1, hall.2, hbuckets _, hbuckets _⟩

end Bounds

end Tables

/-- The month, counted from the beginning of year zero. -/
def MonthlyAnalyticsQuery.index (query : MonthlyAnalyticsQuery) : Nat :=
  12 * query.year.toNat + (query.month.toNat - 1)

/-- A run of `GET /analytics/monthly`, begun after `began` commits of others and
answered after `ended` of them. -/
structure Gets (pg : DateCast) (left : Nat → Prop) (history : Nat → Tables)
    (query : MonthlyAnalyticsQuery) (began ended : Nat) (trace : ApiTrace)
    (response : ApiResponse) : Prop where
  run : (getMonthlyAnalytics query).Run trace (.ok response)
  served : ∃ session, Served SnapshotState.Rely
    (SnapshotState.Serves pg left history) ⟨began, .closed⟩ trace ⟨ended, session⟩

section Endpoint

variable {pg : DateCast} {left : Nat → Prop} {history : Nat → Tables}
variable {query : MonthlyAnalyticsQuery}
variable {began ended : Nat} {trace : ApiTrace} {response : ApiResponse}

/-- The ranges that the endpoint asks for. -/
theorem MonthlyAnalyticsQuery.ranges (query : MonthlyAnalyticsQuery) :
    ∃ ranges, getMonthlyAnalyticsRanges query.year query.month = .ok ranges ∧
      (∀ pg : DateCast, pg.range ranges.current =
        some (monthDays query.index)) ∧
      ∀ pg : DateCast, pg.range ranges.previous =
        some (monthDays (query.index - 1)) := by
  obtain ⟨year, month, hyear, hmonth⟩ := query
  lift year to Nat using by omega
  lift month to Nat using by omega
  obtain ⟨index, hindex⟩ : ∃ index, index + 1 = 12 * year + (month - 1) :=
    ⟨12 * year + (month - 1) - 1, by omega⟩
  have hthis : MonthlyAnalyticsQuery.index ⟨year, month, hyear, hmonth⟩ =
      index + 1 := by
    simp only [MonthlyAnalyticsQuery.index, Int.toNat_natCast, hindex]
  rw [hthis]
  exact ⟨_, getMonthlyAnalyticsRanges_eq (by omega) (by omega) (by omega) hindex,
    fun pg => pg.range_month _ (by omega) (by omega),
    fun pg => pg.range_month _ (by omega) (by omega)⟩

/-- The endpoint answers with the report of one snapshot, or the method has
thrown. -/
theorem Gets.answers (h : Gets pg left history query began ended trace response) :
    (∃ (snapshot : Nat) (aggregates : MonthlyAnalyticsAggregates),
      Readable left began ended snapshot ∧
      (history snapshot).Reports (monthDays query.index) aggregates.current ∧
      (history snapshot).Reports (monthDays (query.index - 1))
        aggregates.previous ∧
      response = .analytics (buildMonthlyAnalytics query.year query.month
        aggregates.current aggregates.previous)) ∨
    (response = .statement dependencyUnavailable ∧
      (Proc.Granted trace → ∃ snapshot, Readable left began ended snapshot ∧
        ¬((history snapshot).Fits (monthDays query.index) ∧
          (history snapshot).Fits (monthDays (query.index - 1))))) := by
  obtain ⟨hrun, session, hserved⟩ := h
  obtain ⟨ranges, hranges, hcurrent, hprevious⟩ := query.ranges
  rw [getMonthlyAnalytics, hranges] at hrun
  change Proc.Run ((StatementRepository.findMonthlyAnalytics ranges).attempt >>=
    _) _ _ at hrun
  rw [Proc.attempt_bind, Proc.run_andThen_iff] at hrun
  obtain ⟨before, result, after, rfl, hcalled, hafter⟩ := hrun
  obtain ⟨w, hs, hs'⟩ := served_append_iff.mp hserved
  have hlater := served_later hs'
  cases result with
  | ok aggregates =>
      left
      obtain ⟨snapshot, days, days', hreadable, hdays, hdays', hreports,
        hreports'⟩ := served_findMonthlyAnalytics hcalled hs
      cases (hcurrent pg).symm.trans hdays
      cases (hprevious pg).symm.trans hdays'
      cases (Proc.run_settled_iff.mp hafter).2
      exact ⟨snapshot, aggregates, hreadable.mono le_rfl hlater, hreports,
        hreports', rfl⟩
  | error error =>
      right
      cases (Proc.run_settled_iff.mp hafter).2
      refine ⟨rfl, fun hgranted => ?_⟩
      by_contra hfits
      have hbounded : SnapshotState.Bounded pg left history ranges
          ⟨began, .closed⟩ w := by
        intro snapshot days hreadable hdays
        obtain ⟨hfit, hfit'⟩ := not_not.mp fun hunfit =>
          hfits ⟨snapshot, hreadable.mono le_rfl hlater, hunfit⟩
        rcases hdays with hdays | hdays
        · cases (hcurrent pg).symm.trans hdays
          exact hfit
        · cases (hprevious pg).symm.trans hdays
          exact hfit'
      obtain ⟨_, hok⟩ := served_findMonthlyAnalytics_granted hcalled
        (Proc.granted_append.mp hgranted).1 hs hbounded
      cases hok

/-- A report that fits can be had at any moment. -/
theorem exists_gets (pg : DateCast) (left : Nat → Prop)
    (history : Nat → Tables) (query : MonthlyAnalyticsQuery) (moment : Nat)
    (hfits : ∀ days, (history moment).Fits days) :
    ∃ trace body, Gets pg left history query moment moment trace
      (.analytics body) ∧ Proc.Granted trace := by
  obtain ⟨ranges, hranges, hcurrent, hprevious⟩ := query.ranges
  obtain ⟨trace, aggregates, hrun, hgranted, hserved⟩ :=
    @exists_findMonthlyAnalytics pg left history ranges _ _ moment
      (hcurrent pg) (hprevious pg) (hfits _) (hfits _)
  have hget : (getMonthlyAnalytics query).Run (trace ++ [])
      (.ok (.analytics (buildMonthlyAnalytics query.year query.month
        aggregates.current aggregates.previous))) := by
    rw [getMonthlyAnalytics, hranges]
    change Proc.Run ((StatementRepository.findMonthlyAnalytics ranges).attempt >>=
      _) _ _
    rw [Proc.attempt_bind]
    exact hrun.followed .settled
  rw [List.append_nil] at hget
  exact ⟨trace, _, ⟨hget, .closed, hserved⟩, hgranted⟩

end Endpoint

end StatementAnalyzer
