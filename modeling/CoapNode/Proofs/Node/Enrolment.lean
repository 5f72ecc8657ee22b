import CoapNode.Proofs.Observe.Lending
/-! Who holds which path. A radio's table names a path at most once, and each of an application's
services keeps the registration it was last given. As long as ids are not reused the two agree:
a service whose registration is current is the only one that holds it, and the table names its
path. -/
namespace CoapNode

/-! ## Paths -/

theorem PathRelation.ofChars_eq_equal {l r : List Char} :
    PathRelation.ofChars l r = .equal ↔ l = r := by
  induction l generalizing r with
  | nil =>
    cases r with
    | nil => simp [ofChars]
    | cons c r => simp only [ofChars]; split <;> simp
  | cons c l ih =>
    cases r with
    | nil => simp only [ofChars]; split <;> simp
    | cons d r =>
      by_cases same : c = d
      · simp [ofChars, same, ih]
      · simp [ofChars, same]

/-- Paths are equal when they are the same but for leading slashes, so equality of paths is an
equivalence. -/
theorem relatePaths_eq_equal {l r : String} :
    relatePaths l r = .equal ↔ trimSlashes l = trimSlashes r := by
  rw [relatePaths, PathRelation.ofChars_eq_equal, String.toList_inj]

/-! ## The table -/

namespace Radio

variable {r s : Radio}

structure SameTable (r s : Radio) : Prop where
  resources : s.resources = r.resources
  next : s.nextRegistration = r.nextRegistration

/-- A path that nobody had was entered under the next registration. -/
structure Granted (r : Radio) (path : String) (s : Radio) : Prop where
  free : ∀ x ∈ r.resources, relatePaths x.path path ≠ .equal
  room : r.resources.length < maxResources
  resources : s.resources = r.resources ++ [⟨r.nextRegistration, path⟩]
  next : s.nextRegistration = r.nextRegistration.next

structure Ended (r : Radio) (id : RegistrationId) (s : Radio) : Prop where
  resources : s.resources = r.resources.filter fun x => x.id != id
  next : s.nextRegistration = r.nextRegistration

theorem SameTable.refl (r : Radio) : r.SameTable r := ⟨rfl, rfl⟩

theorem register_outcome (r : Radio) (path : String) :
    (r.SameTable (r.register path).1 ∧ ∃ e, (r.register path).2 = .error e) ∨
      r.Granted path (r.register path).1 ∧ (r.register path).2 = .ok r.nextRegistration := by
  unfold register
  split
  · exact .inl ⟨⟨rfl, rfl⟩, _, rfl⟩
  next free =>
  split
  · exact .inl ⟨⟨rfl, rfl⟩, _, rfl⟩
  next room =>
  refine .inr ⟨⟨?_, Nat.lt_of_not_le room, rfl, rfl⟩, rfl⟩
  simpa using free

theorem unregister_ended (r : Radio) (id : RegistrationId) : r.Ended id (r.unregister id).1 :=
  ⟨rfl, rfl⟩

theorem attach_outcome (r : Radio) (e : Endpoint) :
    ((e.attach r).1 = e ∧ r.SameTable (e.attach r).2.1) ∨
      r.Granted e.path (e.attach r).2.1 ∧
        (e.attach r).1 = { e with registration := some r.nextRegistration } ∧
        (e.attach r).2.2 = .ok r.nextRegistration := by
  unfold Endpoint.attach
  split
  · exact .inl ⟨rfl, .refl r⟩
  rcases r.register_outcome e.path with ⟨same, _, refused⟩ | ⟨granted, done⟩
  · split
    · next whole => rw [whole] at refused; cases refused
    · next whole => rw [whole] at same; exact .inl ⟨rfl, same⟩
  · split
    · next whole =>
      rw [whole] at granted done
      cases done
      exact .inr ⟨granted, rfl, rfl⟩
    · next whole => rw [whole] at done; cases done

theorem shutdown_outcome (r : Radio) (e : Endpoint) :
    (e.registration = none ∧ e.shutdown r = (e, r)) ∨
      ∃ id, e.registration = some id ∧ (e.shutdown r).1 = { e with registration := none } ∧
        r.Ended id (e.shutdown r).2 := by
  unfold Endpoint.shutdown
  cases held : e.registration with
  | none => exact .inl ⟨rfl, rfl⟩
  | some id => exact .inr ⟨id, rfl, rfl, ⟨rfl, rfl⟩⟩

theorem createEndpoint_outcome (r : Radio) (path : String) (handler : Handler) :
    (r.SameTable (Endpoint.create r path handler).1 ∧
        ∃ e, (Endpoint.create r path handler).2 = .error e) ∨
      r.Granted path (Endpoint.create r path handler).1 ∧
        (Endpoint.create r path handler).2 =
          .ok ⟨path, some r.nextRegistration, false, handler⟩ := by
  unfold Endpoint.create Endpoint.attach
  simp only [Option.filter_none]
  rcases r.register_outcome path with ⟨same, e, refused⟩ | ⟨granted, done⟩
  · left
    cases whole : r.register path with
    | mk r' result =>
      rw [whole] at same refused
      cases refused
      exact ⟨same, e, rfl⟩
  · right
    cases whole : r.register path with
    | mk r' result =>
      rw [whole] at granted done
      cases done
      exact ⟨granted, rfl⟩

end Radio

/-! ## Services -/

namespace Service

/-- The path of a plain or observable service, and the registration it was last given. -/
def claim? (s : Service) : Option (String × Option RegistrationId) :=
  s.endpoint?.map fun e => (e.path, e.registration)

theorem withstands_endpoint : Withstands endpoint? fun _ => True :=
  withstands_of_endpoint fun _ _ same => congrArg some same

theorem outlasts_endpoint : Outlasts endpoint? :=
  outlasts_of_endpoint fun _ _ same => congrArg some same

inductive Claims (x : Service) (r : Radio) (x' : Service) (r' : Radio) : Prop
  | kept (claim : x'.claim? = x.claim?) (table : r.SameTable r')
  | given (path : String) {old : Option RegistrationId} (before : x.claim? = some (path, old))
      (claim : x'.claim? = some (path, some r.nextRegistration)) (granted : r.Granted path r')
  | left (path : String) {id : RegistrationId} (before : x.claim? = some (path, some id))
      (claim : x'.claim? = some (path, none)) (ended : r.Ended id r')

theorem call_shutdown_claims (x : Service) (r : Radio) :
    x.Claims r (x.call r .shutdown).1 (x.call r .shutdown).2.1 := by
  cases x with
  | plain e =>
    rcases r.shutdown_outcome e with ⟨none, same⟩ | ⟨id, held, resource, ended⟩
    · have whole : (plain e).call r .shutdown = (plain e, r, .silent) := by
        simp only [call, endpoint?, callEndpoint, same, withEndpoint]
      rw [whole]
      exact .kept rfl (.refl r)
    · exact .left e.path (by simp [claim?, endpoint?, held])
        (by simp [call, endpoint?, callEndpoint, withEndpoint, claim?, resource]) ended
  | observable s =>
    rcases r.shutdown_outcome s.endpoint with ⟨none, same⟩ | ⟨id, held, resource, ended⟩
    · refine .kept ?_ ?_
      · simp [call, endpoint?, callEndpoint, Observable.shutdown, claim?, same]
      · simp only [call, endpoint?, callEndpoint, Observable.shutdown, same]
        exact .refl r
    · exact .left s.endpoint.path (by simp [claim?, endpoint?, held])
        (by simp [call, endpoint?, callEndpoint, Observable.shutdown, claim?, resource]) ended
  | probe p => exact .kept rfl (.refl r)

theorem call_register_claims (x : Service) (r : Radio) :
    x.Claims r (x.call r .register).1 (x.call r .register).2.1 := by
  cases claimed : x.endpoint? with
  | none =>
    have whole : x.call r .register = (x, r, .isProbe) := by simp only [call, claimed]
    rw [whole]
    exact .kept rfl (.refl r)
  | some e =>
    have whole : x.call r .register = (x.withEndpoint (e.attach r).1, (e.attach r).2.1,
        .attempted ((e.attach r).2.2.map .registration)) := by
      simp only [call, claimed, callEndpoint]
    have claim : ∀ e', (x.withEndpoint e').claim? = some (e'.path, e'.registration) := by
      intro e'
      cases x with
      | probe p => cases claimed
      | plain e | observable s => rfl
    have before : x.claim? = some (e.path, e.registration) := by rw [claim?, claimed]; rfl
    rw [whole]
    rcases r.attach_outcome e with ⟨same, table⟩ | ⟨granted, given, -⟩
    · exact .kept (by rw [claim, same, before]) table
    · exact .given e.path before (by rw [claim, given]) granted

theorem call_claim (x : Service) (r : Radio) {c : ServiceCall} (stays : c ≠ .shutdown)
    (kept : c ≠ .register) : (x.call r c).1.claim? = x.claim? := by
  cases x with
  | probe p => rfl
  | plain e =>
    cases c with
    | shutdown => exact absurd rfl stays
    | register => exact absurd rfl kept
    | _ => rfl
  | observable s =>
    cases c with
    | shutdown => exact absurd rfl stays
    | register => exact absurd rfl kept
    | setSubresources on => rfl
    | setStatus v =>
      have endpoint : (s.setStatus r v).1.endpoint = s.endpoint := by
        unfold Observable.setStatus
        simp only
        rw [Observable.scheduleRefresh_endpoint]
        exact (Observable.notifyObservers_kept _ r false).1
      exact congrArg (fun e : Endpoint => some (e.path, e.registration)) endpoint
    | _ => rfl

theorem create_claims (r : Radio) (spec : ServiceSpec) :
    (r.SameTable (Service.create r spec).1 ∧
        ∀ x, (Service.create r spec).2 = .ok x → x.claim? = none) ∨
      ∃ path x, r.Granted path (Service.create r spec).1 ∧ (Service.create r spec).2 = .ok x ∧
        x.claim? = some (path, some r.nextRegistration) := by
  cases spec with
  | plain path handler =>
    have outcome := r.createEndpoint_outcome path handler
    rcases whole : Endpoint.create r path handler with ⟨r', result⟩
    rw [whole] at outcome
    simp only [create, whole]
    rcases outcome with ⟨same, e, rfl⟩ | ⟨granted, rfl⟩
    · exact .inl ⟨same, by rintro x ⟨⟩⟩
    · exact .inr ⟨path, _, granted, rfl, rfl⟩
  | observable path handler status renderer =>
    have outcome := r.createEndpoint_outcome path handler
    rcases whole : Endpoint.create r path handler with ⟨r', result⟩
    rw [whole] at outcome
    simp only [create, Observable.create, whole]
    rcases outcome with ⟨same, e, rfl⟩ | ⟨granted, rfl⟩
    · exact .inl ⟨same, by rintro x ⟨⟩⟩
    · exact .inr ⟨path, _, granted, rfl, rfl⟩
  | probe p =>
    refine .inl ⟨.refl r, ?_⟩
    rintro x ⟨⟩
    rfl

end Service

namespace Session

variable {s s' t : Session} {granted : Nat}

def claimAt (s : Session) (i : Nat) : Option (String × Option RegistrationId) :=
  s.services[i]?.bind (·.claim?)

theorem claimAt_of_some {i : Nat} {x : Service} (here : s.services[i]? = some x) :
    s.claimAt i = x.claim? := by
  rw [claimAt, here, Option.bind_some]

/-- What becomes of the table and of the claims: at most one path is granted, or one registration
is ended, and at most one claim changes with it. -/
inductive Books (s s' : Session) : Prop
  | kept (table : s.node.radio.SameTable s'.node.radio) (claims : ∀ i, s'.claimAt i = s.claimAt i)
  | granted (path : String) (granted : s.node.radio.Granted path s'.node.radio) (j : Nat)
      (others : ∀ i, i ≠ j → s'.claimAt i = s.claimAt i)
      (claim : s'.claimAt j = s.claimAt j ∨
        s'.claimAt j = some (path, some s.node.radio.nextRegistration))
  | ended {id : RegistrationId} (ended : s.node.radio.Ended id s'.node.radio)
      (claims : ∀ i path registration, s'.claimAt i = some (path, some registration) →
        s.claimAt i = some (path, some registration))

theorem books_of_claims {i : Nat} {x x' : Service} {radio : Radio}
    (here : s.services[i]? = some x) (radioEq : s'.node.radio = radio)
    (services : s'.services = s.services.set i x') (claims : x.Claims s.node.radio x' radio) :
    s.Books s' := by
  subst radioEq
  obtain ⟨inside, -⟩ := List.getElem?_eq_some_iff.mp here
  have there : s'.claimAt i = x'.claim? :=
    claimAt_of_some (by rw [services, List.getElem?_set_self inside])
  have others : ∀ j, j ≠ i → s'.claimAt j = s.claimAt j := fun j apart => by
    rw [claimAt, services, List.getElem?_set_ne (Ne.symm apart), claimAt]
  have before := claimAt_of_some here
  cases claims with
  | kept claim table =>
    refine .kept table fun j => ?_
    by_cases same : j = i
    · rw [same, there, claim, before]
    · exact others j same
  | given path old claim granted =>
    exact .granted path granted i others (.inr (there.trans claim))
  | left path old claim ended =>
    refine .ended ended fun j path registration held => ?_
    by_cases same : j = i
    · rw [same, there, claim] at held
      cases held
    · rwa [others j same] at held

end Session

def Step.enrols : Step → Bool
  | .register _ | .unregister _ | .createService _ | .callService _ .shutdown
  | .callService _ .register => true
  | _ => false

theorem RegistrationId.next_ne (i : RegistrationId) : i.next ≠ i := by
  intro same
  have := congrArg (·.val.toNat) same
  simp [next] at this
  omega

namespace Session

variable {s s' t : Session} {granted : Nat}

theorem register_books (s : Session) (path : String) :
    s.Books (s.perform (.register path)).1 := by
  rcases s.node.radio.register_outcome path with ⟨same, -⟩ | ⟨granted, -⟩
  · exact .kept same fun _ => rfl
  · exact .granted path granted 0 (fun _ _ => rfl) (.inl rfl)

theorem createService_books (s : Session) (spec : ServiceSpec) :
    s.Books (s.perform (.createService spec)).1 := by
  change s.Books (s.createService spec).1
  have outcome := Service.create_claims s.node.radio spec
  unfold createService
  generalize Service.create s.node.radio spec = done at outcome
  obtain ⟨radio, refusal | x⟩ := done
  · rcases outcome with ⟨table, -⟩ | ⟨_, _, _, made, -⟩
    · exact .kept table fun _ => rfl
    · cases made
  -- the new service stands behind all others
  have others : ∀ i, i ≠ s.services.length →
      claimAt { s.withRadio radio with services := s.services ++ [x] } i = s.claimAt i := by
    intro i apart
    rw [claimAt, claimAt]
    rcases Nat.lt_or_gt_of_ne apart with inside | beyond
    · rw [List.getElem?_append_left inside]
    · rw [List.getElem?_eq_none (by simp; omega), List.getElem?_eq_none (Nat.le_of_lt beyond)]
  have last : claimAt { s.withRadio radio with services := s.services ++ [x] } s.services.length =
      x.claim? := claimAt_of_some (by simp)
  have nobody : s.claimAt s.services.length = none := by simp [claimAt]
  rcases outcome with ⟨table, unclaimed⟩ | ⟨path, y, granted, made, claim⟩
  · refine .kept table fun i => ?_
    by_cases new : i = s.services.length
    · rw [new, last, unclaimed x rfl, nobody]
    · exact others i new
  · cases made
    exact .granted path granted s.services.length others (.inr (last.trans claim))

theorem callService_books (s : Session) (position : Nat) {c : ServiceCall}
    (claims : ∀ (x : Service) (r : Radio), x.Claims r (x.call r c).1 (x.call r c).2.1) :
    s.Books (s.perform (.callService position c)).1 := by
  change s.Books (s.callService position c).1
  cases here : s.services[position % s.services.length]? with
  | none =>
    rw [callService_of_none here]
    exact .kept (.refl _) fun _ => rfl
  | some x =>
    obtain ⟨radio, services⟩ := callService_outcome here c
    exact books_of_claims here radio services (claims x s.node.radio)

theorem perform_books (s : Session) {step : Step} (enrols : step.enrols = true) :
    s.Books (s.perform step).1 := by
  cases step with
  | register path => exact s.register_books path
  | unregister id => exact .ended (s.node.radio.unregister_ended id) fun _ _ _ held => held
  | createService spec => exact s.createService_books spec
  | callService position c =>
    cases c with
    | shutdown => exact s.callService_books position Service.call_shutdown_claims
    | register => exact s.callService_books position Service.call_register_claims
    | _ => cases enrols
  | _ => cases enrols

/-! ## Runs -/

/-- How many registrations a call granted. -/
def grants (s s' : Session) : Nat :=
  if s'.node.radio.nextRegistration = s.node.radio.nextRegistration then 0 else 1

/-- One session becomes another by calls that concern registrations, so many of which grant one;
whatever happens in between leaves the table and the claims alone. -/
inductive Enrols (s : Session) : Nat → Session → Prop
  | refl : Enrols s 0 s
  | call {granted : Nat} {t : Session} (earlier : Enrols s granted t) (step : Step)
      (enrols : step.enrols = true) :
      Enrols s (granted + t.grants (t.perform step).1) (t.perform step).1
  | apart {granted : Nat} {t u : Session} (earlier : Enrols s granted t)
      (table : t.node.radio.SameTable u.node.radio) (claims : ∀ i, u.claimAt i = t.claimAt i) :
      Enrols s granted u

/-- Ids are the numbers of the registrations granted. The table has room for its resources, names
each path once, and gives each the id that it was granted under; a claim is the only one of its
registration, and if that is current the table names the claimed path. -/
structure Orderly (s : Session) (granted : Nat) : Prop where
  next : s.node.radio.nextRegistration = ⟨.ofNat granted⟩
  few : s.node.radio.resources.length ≤ maxResources
  paths : s.node.radio.resources.Pairwise fun x y => relatePaths x.path y.path ≠ .equal
  ids : ∀ x ∈ s.node.radio.resources, x.id.val.toNat < granted
  distinct : (s.node.radio.resources.map (·.id)).Nodup
  held : ∀ i path id, s.claimAt i = some (path, some id) → id.val.toNat < granted
  named : ∀ i path id, s.claimAt i = some (path, some id) →
    ∀ x ∈ s.node.radio.resources, x.id = id → x.path = path
  apart : ∀ i j path path' id, s.claimAt i = some (path, some id) →
    s.claimAt j = some (path', some id) → i = j

theorem start_orderly (self : NodeId) (config : Config) (scale : TickScale) :
    (start self config scale).Orderly 0 := by
  have nobody : ∀ i, (start self config scale).claimAt i = none := fun i => by
    simp [claimAt, start]
  refine ⟨rfl, Nat.zero_le _, List.Pairwise.nil, by simp [start, Radio.start], List.nodup_nil,
    fun i path id held => ?_, fun i path id held => ?_, fun i j path path' id held => ?_⟩
  all_goals
    rw [nobody] at held
    cases held

theorem Orderly.next_toNat (h : s.Orderly granted) (few : granted < 65536) :
    s.node.radio.nextRegistration.val.toNat = granted := by
  rw [h.next]
  exact Nat.mod_eq_of_lt few

theorem Orderly.kept (h : s.Orderly granted) (table : s.node.radio.SameTable s'.node.radio)
    (claims : ∀ i, s'.claimAt i = s.claimAt i) : s'.Orderly granted where
  next := table.next.trans h.next
  few := by rw [table.resources]; exact h.few
  paths := by rw [table.resources]; exact h.paths
  ids := by rw [table.resources]; exact h.ids
  distinct := by rw [table.resources]; exact h.distinct
  held i path id claim := h.held i path id ((claims i).symm.trans claim)
  named i path id claim := by
    rw [table.resources]
    exact h.named i path id ((claims i).symm.trans claim)
  apart i j path path' id one other := h.apart i j path path' id ((claims i).symm.trans one)
    ((claims j).symm.trans other)

theorem Orderly.ended (h : s.Orderly granted) {id : RegistrationId}
    (ended : s.node.radio.Ended id s'.node.radio)
    (claims : ∀ i path registration, s'.claimAt i = some (path, some registration) →
      s.claimAt i = some (path, some registration)) : s'.Orderly granted where
  next := ended.next.trans h.next
  few := by
    rw [ended.resources]
    exact Nat.le_trans (List.length_filter_le _ _) h.few
  paths := by
    rw [ended.resources]
    exact h.paths.sublist List.filter_sublist
  ids x member := by
    rw [ended.resources] at member
    exact h.ids x (List.mem_of_mem_filter member)
  distinct := by
    rw [ended.resources]
    exact h.distinct.sublist (List.filter_sublist.map _)
  held i path registration claim := h.held i path registration (claims _ _ _ claim)
  named i path registration claim x member := by
    rw [ended.resources] at member
    exact h.named i path registration (claims _ _ _ claim) x (List.mem_of_mem_filter member)
  apart i j path path' registration one other := h.apart i j path path' registration
    (claims _ _ _ one) (claims _ _ _ other)

theorem claim_of_granted {path : String} {j : Nat}
    (others : ∀ i, i ≠ j → s'.claimAt i = s.claimAt i)
    (claim : s'.claimAt j = s.claimAt j ∨
      s'.claimAt j = some (path, some s.node.radio.nextRegistration)) {i : Nat} {path' : String}
    {id : RegistrationId} (claimed : s'.claimAt i = some (path', some id)) :
    s.claimAt i = some (path', some id) ∨
      i = j ∧ path' = path ∧ id = s.node.radio.nextRegistration := by
  by_cases same : i = j
  · subst same
    rcases claim with old | new
    · exact .inl (old.symm.trans claimed)
    · rw [new] at claimed
      cases claimed
      exact .inr ⟨rfl, rfl, rfl⟩
  · exact .inl ((others i same).symm.trans claimed)

/-- The new registration is held by nobody yet, for its id is not below the number granted. -/
theorem Orderly.enters (h : s.Orderly granted) (few : granted < 65536) {path : String}
    (entered : s.node.radio.Granted path s'.node.radio) {j : Nat}
    (others : ∀ i, i ≠ j → s'.claimAt i = s.claimAt i)
    (claim : s'.claimAt j = s.claimAt j ∨
      s'.claimAt j = some (path, some s.node.radio.nextRegistration)) :
    s'.Orderly (granted + 1) := by
  have number := h.next_toNat few
  have fresh : ∀ id : RegistrationId, id.val.toNat < granted →
      id ≠ s.node.radio.nextRegistration := by
    rintro id below rfl
    omega
  have claims := @claim_of_granted s s' path j others claim
  constructor
  · rw [entered.next, h.next, UInt16.ofNat_add]
    rfl
  · rw [entered.resources, List.length_append]
    exact entered.room
  · rw [entered.resources, List.pairwise_append]
    refine ⟨h.paths, List.pairwise_singleton _ _, fun x old y new => ?_⟩
    rw [List.mem_singleton.mp new]
    exact entered.free x old
  · intro x member
    rw [entered.resources] at member
    rcases List.mem_append.mp member with old | new
    · exact Nat.lt_succ_of_lt (h.ids x old)
    · rw [List.mem_singleton.mp new, number]
      exact Nat.lt_succ_self _
  · rw [entered.resources, List.map_append, List.nodup_append]
    refine ⟨h.distinct, by simp, fun id old id' new => ?_⟩
    obtain ⟨x, member, rfl⟩ := List.mem_map.mp old
    rw [List.map_singleton, List.mem_singleton] at new
    rw [new]
    exact fresh x.id (h.ids x member)
  · intro i path' id claimed
    rcases claims claimed with old | ⟨-, -, rfl⟩
    · exact Nat.lt_succ_of_lt (h.held i path' id old)
    · rw [number]
      exact Nat.lt_succ_self _
  · intro i path' id claimed x member same
    rw [entered.resources] at member
    rcases claims claimed with old | ⟨-, rfl, rfl⟩
    · rcases List.mem_append.mp member with listed | new
      · exact h.named i path' id old x listed same
      · rw [List.mem_singleton.mp new] at same
        exact absurd same.symm (fresh id (h.held i path' id old))
    · rcases List.mem_append.mp member with listed | new
      · exact absurd same (fresh x.id (h.ids x listed))
      · rw [List.mem_singleton.mp new]
  · intro i k path₁ path₂ id one other
    rcases claims one with old | ⟨rfl, -, rfl⟩ <;> rcases claims other with old' | ⟨rfl, -, new⟩
    · exact h.apart i k path₁ path₂ id old old'
    · exact absurd new (fresh id (h.held i path₁ id old))
    · exact absurd rfl (fresh _ (h.held k path₂ _ old'))
    · rfl

theorem Orderly.books (h : s.Orderly granted) (few : granted < 65536) (books : s.Books s') :
    s'.Orderly (granted + s.grants s') := by
  cases books with
  | kept table claims =>
    rw [grants, if_pos table.next]
    exact h.kept table claims
  | granted path entered j others claim =>
    have next : s'.node.radio.nextRegistration ≠ s.node.radio.nextRegistration := by
      rw [entered.next]
      exact RegistrationId.next_ne _
    rw [grants, if_neg next]
    exact h.enters few entered others claim
  | ended ended claims =>
    rw [grants, if_pos ended.next]
    exact h.ended ended claims

theorem Orderly.enrols (h : s.Orderly 0) (run : s.Enrols granted t) (few : granted < 65536) :
    t.Orderly granted := by
  induction run with
  | refl => exact h
  | call earlier step enrols ih =>
    have before := ih (by omega)
    exact before.books (by omega) (perform_books _ enrols)
  | apart earlier table claims ih => exact (ih few).kept table claims

/-! ## Steps as runs -/

theorem Enrols.trans {more : Nat} {u : Session} (h : s.Enrols granted t) (h' : t.Enrols more u) :
    s.Enrols (granted + more) u := by
  induction h' with
  | refl => exact h
  | call earlier step enrols ih => exact Nat.add_assoc _ _ _ ▸ ih.call step enrols
  | apart earlier table claims ih => exact ih.apart table claims

/-- A radio that a session may have later on, after registrations that were granted or ended. -/
def Reaches (r r' : Radio) : Prop :=
  ∀ s : Session, s.node.radio = r → ∃ granted, s.Enrols granted (s.withRadio r')

theorem reaches_of_sameTable {r r' : Radio} (table : r.SameTable r') : Reaches r r' := by
  rintro s rfl
  exact ⟨0, Enrols.refl.apart table fun _ => rfl⟩

theorem lasting_reaches : Radio.Lasting Reaches where
  refl r := reaches_of_sameTable (.refl r)
  trans {r s t} first second := by
    intro x here
    obtain ⟨granted, early⟩ := first x here
    obtain ⟨more, late⟩ := second (x.withRadio s) rfl
    exact ⟨granted + more, early.trans late⟩
  note r severity text := reaches_of_sameTable ⟨rfl, rfl⟩
  transmit r peer packet activity := by
    by_cases fits : packet.serializedLength ≤ datagramBuffer
    · obtain ⟨s, whole, _, _, rfl⟩ := r.transmit_of_fits peer activity fits
      rw [whole]
      exact reaches_of_sameTable ⟨rfl, rfl⟩
    · rw [Radio.transmit_of_long peer activity (Nat.lt_of_not_le fits)]
      exact reaches_of_sameTable (.refl r)
  track r peer packet := by
    refine reaches_of_sameTable ?_
    unfold Radio.track
    split <;> exact ⟨rfl, rfl⟩
  drawId r := reaches_of_sameTable ⟨rfl, rfl⟩
  drawToken r := reaches_of_sameTable ⟨rfl, rfl⟩
  register r path := by
    rintro s rfl
    exact ⟨_, Enrols.refl.call (.register path) rfl⟩
  unregister r id := by
    rintro s rfl
    exact ⟨_, Enrols.refl.call (.unregister id) rfl⟩
  storeResponse r peer id response := by
    refine reaches_of_sameTable ?_
    unfold Radio.storeResponse
    split <;> exact ⟨rfl, rfl⟩
  remember r peer id := reaches_of_sameTable ⟨rfl, rfl⟩
  history r entries := reaches_of_sameTable ⟨rfl, rfl⟩
  retransmits r after other := reaches_of_sameTable ⟨rfl, rfl⟩
  outcomes r outcomes := reaches_of_sameTable ⟨rfl, rfl⟩
  clock r ticks broken := reaches_of_sameTable ⟨rfl, rfl⟩
  log r records := reaches_of_sameTable ⟨rfl, rfl⟩

theorem tolerates_reaches (event : TimerEvent) : Radio.Tolerates Reaches event :=
  fun _ _ => reaches_of_sameTable ⟨rfl, rfl⟩

theorem claimAt_of_endpoints (same : s'.services.map (·.endpoint?) = s.services.map (·.endpoint?))
    (i : Nat) : s'.claimAt i = s.claimAt i := by
  have each : ∀ s : Session, s.claimAt i =
      (s.services.map (·.endpoint?))[i]?.bind (·.map fun e => (e.path, e.registration)) := by
    intro s
    rw [claimAt, List.getElem?_map]
    cases s.services[i]? <;> rfl
  rw [each, each, same]

theorem claimAt_of_putBack {positions : List Nat} {back : List Service}
    (inside : ∀ i ∈ positions, i < s.services.length)
    (same : back.map (·.endpoint?) = (s.lentServices positions).map (·.endpoint?))
    (services : s'.services = putBack s.services positions back) (i : Nat) :
    s'.claimAt i = s.claimAt i := by
  refine claimAt_of_endpoints ?_ i
  rw [services]
  refine putBack_map inside (same.trans ?_)
  rw [lentServices, List.map_filterMap]
  simp only [List.getElem?_map]

theorem perform_claims (s : Session) {step : Step} (other : step.enrols = false) (i : Nat) :
    (s.perform step).1.claimAt i = s.claimAt i := by
  cases step with
  | receive peer bytes idOf lent =>
    obtain ⟨datagram, -, -, back⟩ := s.receive_outcome peer bytes idOf lent
    exact claimAt_of_putBack (s.lentPositions_inside lent)
      (Node.receive_keeps Service.withstands_endpoint _ trivial _ _ fun _ _ => trivial) back i
  | fire choice lent =>
    change (s.fire choice lent).1.claimAt i = _
    cases chosen : s.chosenEvent choice with
    | none => rw [fire_of_none chosen]
    | some event =>
      exact claimAt_of_putBack (s.lentPositions_inside lent)
        (Node.fire_keeps Service.outlasts_endpoint _ _ _) (fire_outcome chosen lent).2 i
  | callService position c =>
    change (s.callService position c).1.claimAt i = _
    cases here : s.services[position % s.services.length]? with
    | none => rw [callService_of_none here]
    | some x =>
      obtain ⟨-, services⟩ := callService_outcome here c
      have claim := x.call_claim s.node.radio (c := c) (by rintro rfl; cases other)
        (by rintro rfl; cases other)
      by_cases mine : i = position % s.services.length
      · obtain ⟨inside, -⟩ := List.getElem?_eq_some_iff.mp here
        subst mine
        rw [claimAt_of_some (by rw [services, List.getElem?_set_self inside]), claim,
          claimAt_of_some here]
      · rw [claimAt, services, List.getElem?_set_ne (Ne.symm mine), claimAt]
  | onKept position action =>
    change (s.onKept position action).1.claimAt i = _
    unfold onKept
    simp only
    split <;> rfl
  | createService _ | register _ | unregister _ => cases other
  | _ => rfl

/-- Whatever an application does, it does to the table and the claims by calls that concern
registrations; those that a handler makes are among them. -/
theorem perform_enrols (s : Session) (step : Step) :
    ∃ granted, s.Enrols granted (s.perform step).1 := by
  cases other : step.enrols with
  | true => exact ⟨_, Enrols.refl.call step other⟩
  | false =>
    obtain ⟨granted, run⟩ := lasting_reaches.session s step
      (fun _ _ id _ => tolerates_reaches (.maxAge id)) (fun event _ => tolerates_reaches event)
      s rfl
    exact ⟨granted, run.apart ⟨rfl, rfl⟩ (s.perform_claims other)⟩

end Session
end CoapNode
