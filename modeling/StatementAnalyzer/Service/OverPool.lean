/-
The service over the connection pool of the API, which the requests for reports
and insights use too.  A client that one of them has released inside a
transaction can serve any later query, so from then on nothing is said about the
service; as long as their ROLLBACKs succeed it does what it does alone.
-/
import StatementAnalyzer.Async.SharedPool
import StatementAnalyzer.Database.OpenTransactions
import StatementAnalyzer.Service.Guarantees

namespace StatementAnalyzer

open Async

/-- The pool of the API, with the calls that use it. -/
abbrev ApiPool := Config (ClientPool ApiMethod) ApiQuery ApiQuery.Answer Thrown Unit

def apiClients :
    System (ClientPool ApiMethod) ApiQuery ApiQuery.Answer Thrown Unit :=
  poolSystem ApiQuery.action ApiMethod.Runs

namespace ApiPool

/-- A client has gone back to the pool inside a transaction. -/
def Spoiled (pool : ApiPool) : Prop :=
  pool.world.Spoiled

/-- No ROLLBACK of `findMonthlyAnalytics` has been rejected with its session left
inside the transaction. -/
def RollsBack (pool : ApiPool) : Prop :=
  pool.world.RollsBack ApiMethod.strict

end ApiPool

theorem apiClients_safeguard : apiClients.Safeguard ClientPool.Spoiled
    (ClientPool.RollsBack ApiMethod.strict) where
  safe h hrolls :=
    (pool_rollsBack (fun _ _ hruns => hruns.keeps) h hrolls).unspoiled
  before h hstep hrolls := hrolls.before h hstep

/-- A system whose statements run over the clients of the pool. -/
abbrev overPool {World Op : Type} {Val : Op → Type} {ε α : Type}
    (S : System World Op Val ε α) : System (World × ApiPool) Op Val ε α :=
  S.over apiClients ClientPool.Spoiled

abbrev pooledService :
    System (Store × ApiPool) Query Query.Answer Thrown Outcome :=
  overPool (querySystem repository Serves)

section Pooled

variable {World Op : Type} {Val : Op → Type} {ε α : Type}
variable {S : System World Op Val ε α}
variable {c c' : Config (World × ApiPool) Op Val ε α}

theorem pooled_reachable (h : (overPool S).Reachable c)
    (hrolls : c.world.2.RollsBack) :
    ¬c.world.2.Spoiled ∧ S.Reachable c.alone := by
  obtain ⟨hpool, halone⟩ := System.over_reachable apiClients_safeguard h
  exact ⟨apiClients_safeguard.safe hpool hrolls, halone hrolls⟩

theorem pooled_leads (h : (overPool S).Reachable c)
    (hleads : (overPool S).Leads c c') (hrolls : c'.world.2.RollsBack) :
    c.world.2.RollsBack ∧ S.Leads c.alone c'.alone := by
  obtain ⟨hpool, _⟩ := System.over_reachable apiClients_safeguard h
  exact (System.over_leads apiClients_safeguard hpool hleads).2 hrolls

/-- A pool that nobody has used. -/
def ApiPool.unused : ApiPool :=
  ⟨⟨[], fun _ => Play.fresh, fun _ => none, false⟩, fun _ => .idle⟩

theorem ApiPool.unused_rollsBack : ApiPool.unused.RollsBack := by
  rintro _ _ ⟨⟩

/-- The state of a system, over such a pool. -/
def unpooled (c : Config World Op Val ε α) :
    Config (World × ApiPool) Op Val ε α :=
  ⟨(c.world, .unused), c.threads⟩

/-- What a system does alone it also does over such a pool. -/
theorem reachable_unpooled {c : Config World Op Val ε α} (h : S.Reachable c) :
    (overPool S).Reachable (unpooled c) :=
  System.alone_reachable h rfl

theorem leads_unpooled {c c' : Config World Op Val ε α} (h : S.Leads c c') :
    (overPool S).Leads (unpooled c) (unpooled c') :=
  System.alone_leads h _

end Pooled

end StatementAnalyzer
