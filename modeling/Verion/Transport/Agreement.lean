import Verion.Grpc.Handlers
import Verion.Http.Public
import Verion.Service.Sentinels

/-!
# The two servers

gRPC and HTTP requests end at the same services. Both servers are fronts: a request is
answered on the spot or passed on as one request of a service, so that what they do to the
tables and the keys is what the services do. And they agree on the outcome: a failure has
the status code of one server and the status of the other that stand for the same thing.
-/

namespace Verion

/-- The one sentinel that an error matches, if it matches any. -/
def Error.sentinel? : Error → Option Sentinel
  | .sentinel s => some s
  | .notFound _ _ => some .notFound
  | .validation _ _ => some .invalidInput
  | .versionConflict _ _ _ _ => some .versionConflict
  | .pg _ | .text _ => none
  | .wrap _ e => e.sentinel?

theorem Error.is_eq (e : Error) (s : Sentinel) : e.is s = decide (e.sentinel? = some s) := by
  induction e with
  | sentinel t => simp [Error.is, Error.sentinel?, Bool.beq_eq_decide_eq]
  | notFound entityType id =>
    simp [Error.is, Error.sentinel?, Bool.beq_eq_decide_eq, eq_comm]
  | validation field message =>
    simp [Error.is, Error.sentinel?, Bool.beq_eq_decide_eq, eq_comm]
  | versionConflict entityType id expected actual =>
    simp [Error.is, Error.sentinel?, Bool.beq_eq_decide_eq, eq_comm]
  | pg e => simp [Error.is, Error.sentinel?]
  | text message => simp [Error.is, Error.sentinel?]
  | wrap context e ih => exact ih

end Verion

namespace Verion.Transport

open Calls Service

variable {Attrs : Type}

/-! ### One server for both -/

inductive Request (Attrs : Type) where
  | grpc (req : Grpc.Request)
  | http (req : Http.Endpoint Attrs)

inductive Response (Attrs : Type) where
  | grpc (resp : Except Grpc.Status Grpc.Response)
  | http (resp : Http.PublicResponse Attrs)

section Servers

variable (P : Primitives Attrs) (M : Grpc.Maps Attrs)

def handle : Request Attrs → Svc Attrs (Response Attrs)
  | .grpc req => do
    let resp ← Grpc.handle P M req
    .ret (.grpc resp)
  | .http req => do
    let resp ← req.handle P
    .ret (.http resp)

def forward : Request Attrs →
    Forward (Service.Request Attrs) Error (Service.Response Attrs) (Response Attrs)
  | .grpc req => (Grpc.forward M req).map .grpc
  | .http req => req.forward.map .http

theorem handle_eq_front (req : Request Attrs) :
    handle P M req = front (Service.Request.program P) (forward M) req := by
  cases req with
  | grpc req =>
    rw [handle, Grpc.handle_eq_front]
    exact front_bind _ req
  | http req =>
    rw [handle, Http.Endpoint.handle_eq_front]
    exact front_bind _ req

end Servers

/-- The requests that a server can pass on. Nothing on the wire marks a key as compromised,
deletes a private key or looks a tenant up by its slug. -/
def Exposed : Service.Request Attrs → Prop
  | .markCompromised .. | .deleteKey _ | .getTenantBySlug _ => False
  | _ => True

section Http

variable {s : Service.Request Attrs}
  {render : Except Error (Service.Response Attrs) → Http.PublicResponse Attrs}

/-- What a route passes on comes back as 200 or 201, or as the status of the error. -/
def Passes (f : Http.Forwarded Attrs) (s : Service.Request Attrs)
    (render : Except Error (Service.Response Attrs) → Http.PublicResponse Attrs) : Prop :=
  f = .pass s render → Exposed s ∧
    ∃ status text, (status = 200 ∨ status = 201) ∧ render = Http.outcome status text

theorem passes_pass {req : Service.Request Attrs} (h : Exposed req) {status : Nat}
    (hstatus : status = 200 ∨ status = 201) (text : String) :
    Passes (Http.pass status text req) s render := by
  intro heq
  cases heq
  exact ⟨h, status, text, hstatus, rfl⟩

theorem passes_withTenant {tenantID : String} {f : Http.Forwarded Attrs}
    (h : Passes f s render) : Passes (Http.withTenant tenantID f) s render := by
  unfold Http.withTenant
  split
  · exact fun heq => nomatch heq
  · exact h

theorem passes_decoded {β : Type} {body : Option β} {f : β → Http.Forwarded Attrs}
    (h : ∀ b, Passes (f b) s render) : Passes (Http.decoded body f) s render := by
  cases body with
  | none => exact fun heq => nomatch heq
  | some b => exact h b

theorem passes_endpoint (req : Http.Endpoint Attrs) : Passes req.forward s render := by
  cases req with
  | unguarded req =>
    cases req with
    | healthz => exact fun heq => nomatch heq
    | createTenant body => exact passes_decoded fun _ => passes_pass (by trivial) (.inr rfl) _
    | createIdentity body => exact passes_decoded fun _ => passes_pass (by trivial) (.inr rfl) _
  | guarded req =>
    cases req with
    | getTenant | suspendTenant | activateTenant => exact passes_pass (by trivial) (.inl rfl) _
    | getIdentity | getByHandle | listIdentities | getKey =>
      exact passes_withTenant (passes_pass (by trivial) (.inl rfl) _)
    | generateKey body => exact passes_decoded fun _ => passes_pass (by trivial) (.inr rfl) _
    | _ => exact passes_decoded fun _ => passes_pass (by trivial) (.inl rfl) _

end Http

/-- The status of HTTP for a code of gRPC. -/
def httpStatus : Grpc.Code → Nat
  | .notFound => 404
  | .alreadyExists | .aborted => 409
  | .invalidArgument => 400
  | .failedPrecondition => 422
  | .permissionDenied => 403
  | .internal => 500

/-- The sentinels that have a code in `toGRPCError` and no case in `writeServiceError`. -/
def grpcOnly : List Sentinel :=
  [.credentialInactive, .credentialConsumed, .recoveryNotUsable, .noPrimaryKey]

theorem writeServiceError_eq {e : Error} (h : ∀ s ∈ grpcOnly, e.is s = false) :
    (Http.writeServiceError e : Http.Response Attrs) =
      Http.writeError (httpStatus (Grpc.toGRPCError e).code) (Grpc.toGRPCError e).message := by
  simp only [grpcOnly, List.forall_mem_cons, Error.is_eq] at h
  unfold Http.writeServiceError Grpc.toGRPCError
  simp only [List.any_cons, List.any_nil, Bool.or_false, Error.is_eq]
  cases hs : e.sentinel? with
  | none => simp [httpStatus]
  | some s =>
    rw [hs] at h
    cases s <;> simp [httpStatus] at h ⊢

theorem sentinels_shared (req : Service.Request Attrs) :
    ∀ s ∈ grpcOnly, s ∉ req.sentinels := by
  have hall : grpcOnly.all (fun s => !req.sentinels.contains s) = true := by
    cases req <;> rfl
  intro s hs hmem
  have hnot := List.all_eq_true.mp hall s hs
  rw [List.contains_iff_mem.mpr hmem] at hnot
  cases hnot

theorem writeServiceError_of_run {P : Primitives Attrs} {req : Service.Request Attrs}
    {es : Nat → Env} {w : World} {x : Error}
    (h : ((req.program P).run (exec P) es w).1 = .error x) :
    (Http.writeServiceError x : Http.Response Attrs) =
      Http.writeError (httpStatus (Grpc.toGRPCError x).code) (Grpc.toGRPCError x).message := by
  refine writeServiceError_eq fun s hs => ?_
  by_contra htrue
  exact sentinels_shared req s hs (request_error_within h s (Bool.eq_true_of_not_eq_false htrue))

/-- A gRPC and an HTTP request that are passed on as the same request of a service leave the
same world. Both show what the service returned, or both the same failure, under the code and
the status that correspond and with one message. -/
theorem transports_agree (P : Primitives Attrs) (M : Grpc.Maps Attrs) (g : Grpc.Request)
    (h : Http.Endpoint Attrs)
    (render : Except Error (Service.Response Attrs) → Http.PublicResponse Attrs)
    (hsame : h.forward = .pass (g.toService M) render) (es : Nat → Env) (w : World) :
    ∃ w', (∃ resp status text, (status = 200 ∨ status = 201) ∧
        (Grpc.handle P M g).run (exec P) es w = (.ok (.ok (Grpc.answer M resp)), w') ∧
        (h.handle P).run (exec P) es w = (.ok ⟨status, Http.payloadOf text resp⟩, w')) ∨
      ∃ failure : Grpc.Status,
        (Grpc.handle P M g).run (exec P) es w = (.ok (.error failure), w') ∧
        (h.handle P).run (exec P) es w =
          (.ok (Http.writeError (httpStatus failure.code) failure.message).toPublic, w') := by
  obtain ⟨-, status, text, hstatus, rfl⟩ := passes_endpoint h hsame
  have hg : (Grpc.handle P M g).run (exec P) es w =
      (.ok (Grpc.outcome M (((g.toService M).program P).run (exec P) es w).1),
        (((g.toService M).program P).run (exec P) es w).2) := by
    rw [Grpc.handle_eq_front]
    exact run_front_pass rfl es w
  have hh : (h.handle P).run (exec P) es w =
      (.ok (Http.outcome status text (((g.toService M).program P).run (exec P) es w).1),
        (((g.toService M).program P).run (exec P) es w).2) := by
    rw [Http.Endpoint.handle_eq_front]
    exact run_front_pass hsame es w
  refine ⟨(((g.toService M).program P).run (exec P) es w).2, ?_⟩
  cases hout : (((g.toService M).program P).run (exec P) es w).1 with
  | ok resp =>
    rw [hout] at hg hh
    exact .inl ⟨resp, status, text, hstatus, hg, hh⟩
  | error x =>
    have hstatusOf := writeServiceError_of_run hout
    rw [hout] at hg hh
    refine .inr ⟨Grpc.toGRPCError x, hg, hh.trans ?_⟩
    rw [← hstatusOf]
    rfl

/-! ### A suspension over both -/

/-- Maps whose values nobody looks at. -/
def plainMaps : Grpc.Maps Bytes where
  stringMapToAny _ := []
  anyMapToString _ := []

def suspendOverGRPC (id : Nat) : Grpc.Request :=
  .suspendIdentity (UUID.ofNat 1).toText (UUID.ofNat id).toText ""

def suspendOverHTTP (id : Nat) : Http.Endpoint Bytes :=
  .guarded (.suspendIdentity (UUID.ofNat id).toText (some ⟨(UUID.ofNat 1).toText, ""⟩))

/-- The status of the HTTP response in `smallWorld`. -/
def httpStatusOf (req : Http.Endpoint Bytes) : Option Nat :=
  ((req.handle plainPrimitives).run (exec plainPrimitives) (fun n => calm (n + 3))
    smallWorld).1.toOption.map Http.PublicResponse.status

theorem suspensions_agree :
    httpStatusOf (suspendOverHTTP 2) = some 200 ∧ httpStatusOf (suspendOverHTTP 3) = some 404 ∧
    ∃ failure w',
      (Grpc.handle plainPrimitives plainMaps (suspendOverGRPC 3)).run (exec plainPrimitives)
        (fun n => calm (n + 3)) smallWorld = (.ok (.error failure), w') ∧
      ((suspendOverHTTP 3).handle plainPrimitives).run (exec plainPrimitives)
        (fun n => calm (n + 3)) smallWorld =
          (.ok (Http.writeError (httpStatus failure.code) failure.message).toPublic, w') := by
  have hstatus : httpStatusOf (suspendOverHTTP 2) = some 200 ∧
      httpStatusOf (suspendOverHTTP 3) = some 404 := by
    decide +kernel
  refine ⟨hstatus.1, hstatus.2, ?_⟩
  obtain ⟨w', ⟨resp, status, text, hok, -, hhttp⟩ | ⟨failure, hgrpc, hhttp⟩⟩ :=
    transports_agree plainPrimitives plainMaps (suspendOverGRPC 3) (suspendOverHTTP 3) _ rfl
      (fun n => calm (n + 3)) smallWorld
  · have hother : httpStatusOf (suspendOverHTTP 3) = some status := by
      rw [httpStatusOf, hhttp]
      rfl
    rw [hstatus.2] at hother
    cases hother
    omega
  · exact ⟨failure, w', hgrpc, hhttp⟩

end Verion.Transport
