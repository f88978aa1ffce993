import ContentProjection.Application
import ContentProjection.Proofs.StorageFailures

/-!
# Calls after other calls

All calls share one schema cache, and what a call has read stays there, also when the
call fails halfway. Only answers of the schema source get into the cache, so that it
agrees with its source after any history, whatever lookups fail. A call does not see
which calls came before it then: it is answered as by a service that was asked nothing
yet. The same holds of requests, whether a call answers them or not.
-/
namespace ContentProjection

namespace Service

variable (s : Service (Except Fault)) {cache : SchemaCache}

/-- The answer to a call that comes first. -/
def alone (call : Call) : Except Fault Answer := (s.step SchemaCache.empty call).1

theorem alone_eq_answer (call : Call) : s.alone call = s.answer call := by
  obtain ⟨cache', hstep, -⟩ := s.step_eq_answer SchemaCache.faithful_empty call
  rw [alone, hstep]

/-- One call keeps the cache faithful, and its answer does not show what is in the cache. -/
theorem step_eq_alone (h : cache.Faithful s.storage.fieldDefinitions) (call : Call) :
    ∃ cache', s.step cache call = (s.alone call, cache') ∧
      cache'.Faithful s.storage.fieldDefinitions := by
  rw [alone_eq_answer]
  exact s.step_eq_answer h call

theorem run_eq_map_alone (h : cache.Faithful s.storage.fieldDefinitions) (calls : List Call) :
    s.run cache calls = calls.map s.alone := by
  rw [s.run_eq_map_answer h]
  exact List.map_congr_left fun call _ => (s.alone_eq_answer call).symm

end Service

/-- Whatever lookups fail, each call of a run is answered as it is by a new service. -/
theorem Store.run_broken_eq_map_alone (dump : Dump) (baseUrl : String) (offset : Calendar.Offset)
    (policy : Policy) (failing : List Lookup) (calls : List Call) :
    (((Store.ofDump dump baseUrl).service offset policy).broken failing).run SchemaCache.empty
        calls =
      calls.map (((Store.ofDump dump baseUrl).service offset policy).broken failing).alone :=
  Service.run_eq_map_alone _ SchemaCache.faithful_empty calls

namespace Router

variable (r : Router)

/-- The responses to requests that come one after the other. -/
def run : SchemaCache → List Request → List Response
  | _, [] => []
  | cache, request :: requests =>
    let (response, cache') := r.respond cache request
    response :: run cache' requests

/-- The response to a request that comes first. -/
def alone (request : Request) : Response := (r.respond SchemaCache.empty request).1

section Faithful

variable {r} {cache : SchemaCache}
  (h : cache.Faithful r.application.service.storage.fieldDefinitions)
include h

theorem serve_eq_alone (route : Route) (target : Target) :
    ∃ cache', r.serve cache route target = ((r.serve SchemaCache.empty route target).1, cache') ∧
      cache'.Faithful r.application.service.storage.fieldDefinitions := by
  unfold serve
  cases r.callOf route target with
  | error name => exact ⟨cache, rfl, h⟩
  | ok call =>
    have hempty := r.application.service.step_eq_alone SchemaCache.faithful_empty call
    obtain ⟨first, hfirst, -⟩ := hempty
    obtain ⟨next, hnext, hfaithful⟩ := r.application.service.step_eq_alone h call
    dsimp only
    rw [hfirst, hnext]
    refine ⟨next, ?_, hfaithful⟩
    cases r.application.service.alone call <;> rfl

theorem respond_eq_alone (request : Request) :
    ∃ cache', r.respond cache request = (r.alone request, cache') ∧
      cache'.Faithful r.application.service.storage.fieldDefinitions := by
  unfold alone respond
  cases Route.find? r.routes request.target.path with
  | none => exact ⟨cache, by dsimp only; split <;> rfl, h⟩
  | some route =>
    obtain ⟨next, hnext, hfaithful⟩ := serve_eq_alone h route request.target
    dsimp only
    rw [hnext]
    by_cases hget : (request.method == "HEAD" || request.method == "GET") = true
    · rw [if_pos hget, if_pos hget]
      exact ⟨next, by split <;> rfl, hfaithful⟩
    · rw [if_neg hget, if_neg hget]
      exact ⟨cache, rfl, h⟩

end Faithful

/-- Requests are answered as each one is alone. -/
theorem run_eq_map_alone {cache : SchemaCache}
    (h : cache.Faithful r.application.service.storage.fieldDefinitions) (requests : List Request) :
    r.run cache requests = requests.map r.alone := by
  induction requests generalizing cache with
  | nil => rfl
  | cons request requests ih =>
    obtain ⟨next, hrespond, hnext⟩ := respond_eq_alone h request
    rw [run, hrespond]
    exact congrArg (List.cons (r.alone request)) (ih hnext)

end Router

end ContentProjection
