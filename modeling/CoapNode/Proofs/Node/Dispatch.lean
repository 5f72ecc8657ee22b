import CoapNode.Proofs.Node.Acknowledging
import CoapNode.Proofs.Node.AtMostOnce
import CoapNode.Proofs.Node.Enrolment
/-! Which service a request goes to. Among services that answer for one path each, at most one has
a current registration and accepts the request; the others leave it as it is when it is offered
to them, so the order in which services are lent does not matter. -/
namespace CoapNode

/-! ## Offers -/

namespace Service

/-- The service is a plain or observable one, its registration is current, and it accepts the
request. -/
def takes (x : Service) (r : Radio) (packet : Message) : Bool :=
  x.endpoint?.any fun e => e.registration.any r.isRegistered && e.accepts packet

variable {x : Service} {n : Node} {m : Received}

theorem takes_iff {r : Radio} {packet : Message} : x.takes r packet = true ↔
    ∃ e id, x.endpoint? = some e ∧ e.registration = some id ∧ r.isRegistered id = true ∧
      e.accepts packet = true := by
  cases claimed : x.endpoint? with
  | none => simp [takes, claimed]
  | some e => cases held : e.registration <;> simp [takes, claimed, held]

theorem registration_of_endpoint? {e : Endpoint} (claimed : x.endpoint? = some e) :
    x.registration = e.registration := by
  cases x with
  | probe p => cases claimed
  | plain e | observable s => cases claimed; rfl

theorem offer_taken (takes : x.takes n.radio m.packet = true) : (x.offer n m).2.2.2 = true := by
  obtain ⟨e, -, claimed, -, -, accepts⟩ := takes_iff.mp takes
  cases x with
  | probe p => cases claimed
  | plain e =>
    cases claimed
    rw [offer, if_pos accepts]
  | observable s =>
    cases claimed
    simp only [offer, Observable.offer, accepts, Bool.not_true, Bool.false_eq_true, if_false]
    split <;> rfl

theorem offer_untaken {e : Endpoint} (claimed : x.endpoint? = some e)
    (refuses : e.accepts m.packet = false) : x.offer n m = (x, n, m, false) := by
  cases x with
  | probe p => cases claimed
  | plain e =>
    cases claimed
    simp [offer, refuses]
  | observable s =>
    cases claimed
    simp [offer, Observable.offer, refuses]

end Service

namespace Node

variable {n : Node} {m : Received} {x : Service} {before services : List Service}

theorem offerRequest_untaken
    (untaken : ∀ x ∈ services, x.endpoint?.isSome = true ∧ x.takes n.radio m.packet = false) :
    n.offerRequest m services = (n, m, services, false) := by
  induction services with
  | nil => rfl
  | cons x rest ih =>
    obtain ⟨⟨some, refuses⟩, others⟩ := List.forall_mem_cons.mp untaken
    obtain ⟨e, claimed⟩ := Option.isSome_iff_exists.mp some
    simp only [offerRequest, ih others]
    split
    · next current =>
      rw [x.registration_of_endpoint? claimed] at current
      have refuses : e.accepts m.packet = false := by
        simpa [Service.takes, claimed, current] using refuses
      simp only [x.offer_untaken claimed refuses, ih others, Bool.false_eq_true, if_false]
    · rfl

theorem offerRequest_taken
    (untaken : ∀ x ∈ before, x.endpoint?.isSome = true ∧ x.takes n.radio m.packet = false)
    (takes : x.takes n.radio m.packet = true) (after : List Service) :
    n.offerRequest m (before ++ x :: after) =
      ((x.offer n m).2.1, (x.offer n m).2.2.1, before ++ (x.offer n m).1 :: after, true) := by
  obtain ⟨e, id, claimed, held, current, -⟩ := Service.takes_iff.mp takes
  have registered : x.registration.any n.radio.isRegistered = true := by
    rw [x.registration_of_endpoint? claimed, held]
    exact current
  simp only [offerRequest_append, offerRequest_untaken untaken, offerRequest, registered,
    x.offer_taken takes, if_true, Bool.false_eq_true, if_false]

theorem receiveRequest_untaken
    (untaken : ∀ x ∈ services, x.endpoint?.isSome = true ∧ x.takes n.radio m.packet = false) :
    n.receiveRequest m services =
      ((n.receiveRequest m []).1, services, (n.receiveRequest m []).2.2) := by
  simp only [receiveRequest, offerRequest_untaken untaken, offerRequest]
  split <;> rfl

theorem receiveRequest_taken
    (untaken : ∀ x ∈ before, x.endpoint?.isSome = true ∧ x.takes n.radio m.packet = false)
    (takes : x.takes n.radio m.packet = true) (after : List Service) :
    n.receiveRequest m (before ++ x :: after) =
      ((n.receiveRequest m [x]).1, before ++ (x.offer n m).1 :: after,
        (n.receiveRequest m [x]).2.2) := by
  have alone : n.offerRequest m ([] ++ [x]) = _ := offerRequest_taken (by simp) takes []
  rw [List.nil_append] at alone
  simp only [receiveRequest, offerRequest_taken untaken takes after, alone]
  split <;> rfl

/-- A datagram that is no reset is settled without a service, or it is a request that is new. -/
theorem settles_or_requests (n : Node) (peer : NodeId) {bytes : List UInt8} {packet : Message}
    (read : Packet.decode 128 bytes = .ok packet) (kind : packet.kind ≠ .reset) :
    (∃ n' result, n.Settles peer bytes n' result) ∨
      ∀ services, n.receive peer bytes services =
        (n.entered peer packet).receiveRequest (.fresh packet peer) services := by
  by_cases own : peer = n.radio.self
  · exact .inl ⟨_, _, fun services => by rw [receive, if_pos own]⟩
  -- what comes of it without services comes of it with any
  have settles : (∀ services, n.receive peer bytes services =
      ((n.receive peer bytes []).1, services, (n.receive peer bytes []).2.2)) →
        ∃ n' result, n.Settles peer bytes n' result :=
    fun same => ⟨_, _, same⟩
  cases original : packet.kind.original with
  | false =>
    have reply := packet.kind.original_eq_false.mp original
    refine .inl (settles fun services => ?_)
    simp only [receive, if_neg own, read, receiveReply, reply.resolve_right kind]
    split <;> rfl
  | true =>
    by_cases known : (peer, packet.id) ∈ n.radio.recent
    · obtain ⟨seen, -, -, settled⟩ := receive_known own read original known
      exact .inl ⟨_, _, settled⟩
    by_cases request : packet.isRequest = true
    · exact .inr fun services => receive_request services own read original request known
    · have received := fun services => receive_new n services own read original known
      refine .inl (settles fun services => ?_)
      simp only [received, receiveNew, request, Bool.false_eq_true, if_false]
      split
      · rfl
      · split <;> rfl

end Node

/-! ## Entries put back -/

section

variable {α : Type} {all entries : List α} {before after : List Nat} {k : Nat}

theorem putBack_same {places : List Nat} (inside : ∀ i ∈ places, i < all.length)
    (same : entries = places.filterMap fun i => all[i]?) : putBack all places entries = all := by
  have kept : (putBack all places entries).map id = all.map id :=
    putBack_map inside (by simpa using same)
  simpa using kept

theorem putBack_append {xs ys : List α} (length : before.length = xs.length) :
    putBack all (before ++ after) (xs ++ ys) = putBack (putBack all before xs) after ys := by
  rw [putBack, List.zip_append length, List.foldl_append]
  rfl

theorem putBack_one {x : α} (inside : ∀ i ∈ before ++ k :: after, i < all.length)
    (once : (before ++ k :: after).Nodup) :
    putBack all (before ++ k :: after)
      ((before.filterMap fun i => all[i]?) ++ x :: after.filterMap fun i => all[i]?) =
        all.set k x := by
  obtain ⟨insideBefore, insideAfter⟩ := List.forall_mem_append.mp inside
  obtain ⟨-, apart⟩ := List.nodup_cons.mp (List.nodup_append.mp once).2.1 |>.symm
  have length : before.length = (before.filterMap fun i => all[i]?).length := by
    rw [List.length_filterMap_eq_countP]
    refine (List.countP_eq_length.mpr fun i member => ?_).symm
    simp [insideBefore i member]
  rw [putBack_append length, putBack_same insideBefore rfl, putBack_cons]
  refine putBack_same (by simpa using fun i member => insideAfter i (List.mem_cons_of_mem _ member))
    (List.filterMap_congr fun i member => ?_)
  rw [List.getElem?_set_ne]
  rintro rfl
  exact apart member

end

/-! ## Sessions -/

def Service.isLeaf (x : Service) : Bool := x.endpoint?.any fun e => !e.subresources

namespace Session

variable {s : Session} {granted : Nat} {packet : Message} {i j : Nat}

def isLeaf (s : Session) (i : Nat) : Bool := s.services[i]?.any (·.isLeaf)

/-- The service at the position is registered currently and accepts the request. -/
def handles (s : Session) (packet : Message) (i : Nat) : Bool :=
  s.services[i]?.any (·.takes s.node.radio packet)

theorem handles_iff : s.handles packet i = true ↔
    ∃ x, s.services[i]? = some x ∧ x.takes s.node.radio packet = true := by
  rw [handles, Option.any_eq_true]

end Session

theorem Endpoint.path_of_accepts {e : Endpoint} {packet : Message}
    (accepts : e.accepts packet = true) (leaf : e.subresources = false) :
    ∃ path, packet.uriPath = .ok path ∧ trimSlashes e.path = trimSlashes path := by
  unfold Endpoint.accepts at accepts
  cases read : packet.uriPath with
  | error refusal => simp [read] at accepts
  | ok path =>
    refine ⟨path, rfl, relatePaths_eq_equal.mp ?_⟩
    cases relation : relatePaths e.path path with
    | equal => rfl
    | leftBelow | rightBelow | unrelated => simp [read, relation, leaf] at accepts

namespace Session

variable {s : Session} {granted : Nat} {packet : Message} {i j : Nat}

theorem Orderly.listed (h : s.Orderly granted) (leaf : s.isLeaf i = true)
    (handles : s.handles packet i = true) :
    ∃ x ∈ s.node.radio.resources, ∃ path, s.claimAt i = some (x.path, some x.id) ∧
      packet.uriPath = .ok path ∧ trimSlashes x.path = trimSlashes path := by
  obtain ⟨service, here, takes⟩ := handles_iff.mp handles
  obtain ⟨e, id, claimed, held, current, accepts⟩ := Service.takes_iff.mp takes
  have claim : s.claimAt i = some (e.path, some id) := by
    rw [claimAt_of_some here, Service.claim?, claimed, Option.map_some, held]
  have only : e.subresources = false := by
    simpa [Session.isLeaf, here, Service.isLeaf, claimed] using leaf
  obtain ⟨x, member, same⟩ : ∃ x ∈ s.node.radio.resources, x.id = id := by
    simpa [Radio.isRegistered] using current
  obtain ⟨path, read, trimmed⟩ := Endpoint.path_of_accepts accepts only
  have named := h.named i e.path id claim x member same
  exact ⟨x, member, path, by rw [claim, named, same], read, named ▸ trimmed⟩

theorem Orderly.handles_unique (h : s.Orderly granted) (leaf : s.isLeaf i = true)
    (leaf' : s.isLeaf j = true) (one : s.handles packet i = true)
    (other : s.handles packet j = true) : i = j := by
  obtain ⟨x, member, path, claim, read, trimmed⟩ := h.listed leaf one
  obtain ⟨y, member', path', claim', read', trimmed'⟩ := h.listed leaf' other
  rw [read] at read'
  cases read'
  have equal : relatePaths x.path y.path = .equal :=
    relatePaths_eq_equal.mpr (trimmed.trans trimmed'.symm)
  have same : x = y := by
    by_contra apart
    have symm : Std.Symm fun x y : Resource => relatePaths x.path y.path ≠ .equal :=
      ⟨fun x y different equal =>
        different (relatePaths_eq_equal.mpr (relatePaths_eq_equal.mp equal).symm)⟩
    exact h.paths.forall member member' apart equal
  subst same
  exact h.apart i j _ _ _ claim claim'

theorem leaf_inside (leaf : s.isLeaf i = true) : i < s.services.length := by
  obtain ⟨x, here, -⟩ := (Option.any_eq_true _ _).mp leaf
  exact (List.getElem?_eq_some_iff.mp here).1

theorem lentPositions_of_leaves {positions : List Nat}
    (leaves : ∀ i ∈ positions, s.isLeaf i = true) :
    s.lentPositions (some positions) = positions := by
  rw [lentPositions, Option.getD_some, List.filter_eq_self]
  simpa using fun i member => leaf_inside (leaves i member)

section

variable {peer : NodeId} {bytes : List UInt8} {positions others : List Nat}

/-- What comes of a datagram is what the radio makes of it and which services it gives back. -/
theorem receive_congr (leaves : ∀ i ∈ positions, s.isLeaf i = true)
    (leaves' : ∀ i ∈ others, s.isLeaf i = true) {node : Node}
    {result : Except RuntimeError Inbound} {back back' : List Service}
    (one : s.node.receive peer bytes (s.lentServices positions) = (node, back, result))
    (other : s.node.receive peer bytes (s.lentServices others) = (node, back', result))
    (services : putBack s.services positions back = putBack s.services others back') :
    s.receive peer bytes none (some positions) = s.receive peer bytes none (some others) := by
  have returned : ({ s with node } : Session).returnServices positions back =
      ({ s with node } : Session).returnServices others back' :=
    congrArg (Session.mk node) services
  simp only [receive, Option.bind_none, Option.elim_none, lentPositions_of_leaves leaves,
    lentPositions_of_leaves leaves', one, other, returned]

theorem untaken_of_leaves (packet : Message) (leaves : ∀ i ∈ positions, s.isLeaf i = true)
    (unhandled : ∀ i ∈ positions, s.handles packet i = false) :
    ∀ x ∈ s.lentServices positions,
      x.endpoint?.isSome = true ∧ x.takes s.node.radio packet = false := by
  intro x member
  obtain ⟨i, place, here⟩ := List.mem_filterMap.mp member
  have only := leaves i place
  have untaken := unhandled i place
  rw [Session.isLeaf, here, Option.any_some] at only
  rw [handles, here, Option.any_some] at untaken
  refine ⟨?_, untaken⟩
  obtain ⟨e, claimed, -⟩ := (Option.any_eq_true _ _).mp only
  rw [claimed]
  rfl

/-- A datagram is received as if only the services that handle it were lent, if that is one at
most. -/
theorem receive_of_handling (peer : NodeId) (once : positions.Nodup)
    (leaves : ∀ i ∈ positions, s.isLeaf i = true)
    (read : Packet.decode 128 bytes = .ok packet) (kind : packet.kind ≠ .reset)
    (few : (positions.filter (s.handles packet)).length ≤ 1) :
    s.receive peer bytes none (some positions) =
      s.receive peer bytes none (some (positions.filter (s.handles packet))) := by
  have inside : ∀ i ∈ positions, i < s.services.length := fun i member =>
    leaf_inside (leaves i member)
  have leaves' : ∀ i ∈ positions.filter (s.handles packet), s.isLeaf i = true := fun i member =>
    leaves i (List.mem_of_mem_filter member)
  have inside' : ∀ i ∈ positions.filter (s.handles packet), i < s.services.length :=
    fun i member => leaf_inside (leaves' i member)
  rcases s.node.settles_or_requests peer read kind with ⟨node, result, settled⟩ | requests
  · -- nobody is asked, and all come back as they were
    exact receive_congr leaves leaves' (settled _) (settled _)
      ((putBack_same inside rfl).trans (putBack_same inside' rfl).symm)
  cases handling : positions.filter (s.handles packet) with
  | nil =>
    have untaken := untaken_of_leaves packet leaves
      (by simpa using List.filter_eq_nil_iff.mp handling)
    exact receive_congr leaves (by simp)
      ((requests _).trans (Node.receiveRequest_untaken untaken)) (requests _)
      (putBack_same inside rfl)
  | cons k rest =>
    have sole : rest = [] := by simpa [handling] using few
    subst sole
    obtain ⟨before, after, rfl, unhandled, handled, -⟩ := List.filter_eq_cons_iff.mp handling
    obtain ⟨x, here, takes⟩ := handles_iff.mp handled
    have lent : s.lentServices (before ++ k :: after) =
        s.lentServices before ++ x :: s.lentServices after := by
      rw [lentServices, List.filterMap_append, List.filterMap_cons_some here]
      rfl
    have alone : s.lentServices [k] = [] ++ x :: [] := List.filterMap_cons_some here
    -- the table is the same when the request has entered the history
    have untaken : ∀ x ∈ s.lentServices before, x.endpoint?.isSome = true ∧
        x.takes (s.node.entered peer packet).radio (Received.fresh packet peer).packet = false :=
      untaken_of_leaves packet (fun i member => leaves i (List.mem_append_left _ member))
        (by simpa using unhandled)
    have takes : x.takes (s.node.entered peer packet).radio (Received.fresh packet peer).packet =
        true := takes
    have one := requests (s.lentServices (before ++ k :: after))
    rw [lent, Node.receiveRequest_taken untaken takes, ← lent] at one
    have other := requests (s.lentServices [k])
    rw [alone, Node.receiveRequest_taken (by simp) takes, ← alone] at other
    rw [handling] at leaves'
    exact receive_congr leaves leaves' one other (putBack_one inside once)

theorem eq_of_perm_of_few (perm : others.Perm positions) (few : positions.length ≤ 1) :
    others = positions := by
  match positions with
  | [] => exact List.perm_nil.mp perm
  | [i] => exact List.perm_singleton.mp perm

theorem few_of_unique (once : positions.Nodup)
    (unique : ∀ i ∈ positions, ∀ j ∈ positions, i = j) : positions.length ≤ 1 := by
  match positions with
  | [] | [_] => simp
  | i :: j :: rest =>
    have same := unique i (by simp) j (by simp)
    exact absurd same (List.ne_of_not_mem_cons (List.nodup_cons.mp once).1)

end

/-- However registrations came and went, the table has room for eight resources, names each path
once, and is left alone when it refuses one. So of services that answer for one path each at most
one handles a request; a datagram is received as if that one alone were lent, in whichever order
the others are. -/
theorem dispatch_orderless (self : NodeId) (config : Config) (scale : TickScale)
    (run : (start self config scale).Enrols granted s) (few : granted < 65536) :
    s.node.radio.resources.length ≤ 8 ∧
    s.node.radio.resources.Pairwise (fun x y => relatePaths x.path y.path ≠ .equal) ∧
    (∀ path e, (s.node.radio.register path).2 = .error e →
      (s.node.radio.register path).1.resources = s.node.radio.resources ∧
        (s.node.radio.register path).1.nextRegistration = s.node.radio.nextRegistration) ∧
    ∀ positions : List Nat, positions.Nodup → (∀ i ∈ positions, s.isLeaf i = true) →
      (∀ packet, (positions.filter (s.handles packet)).length ≤ 1) ∧
      ∀ peer bytes packet, Packet.decode 128 bytes = .ok packet → packet.kind ≠ .reset →
        s.receive peer bytes none (some positions) =
            s.receive peer bytes none (some (positions.filter (s.handles packet))) ∧
          ∀ others, others.Perm positions → s.receive peer bytes none (some others) =
            s.receive peer bytes none (some positions) := by
  have orderly := (start_orderly self config scale).enrols run few
  refine ⟨orderly.few, orderly.paths, fun path e refused => ?_, fun positions once leaves => ?_⟩
  · rcases s.node.radio.register_outcome path with ⟨same, -⟩ | ⟨-, done⟩
    · exact ⟨same.resources, same.next⟩
    · rw [done] at refused
      cases refused
  have single : ∀ packet, (positions.filter (s.handles packet)).length ≤ 1 := by
    intro packet
    refine few_of_unique (once.filter _) fun i one j other => ?_
    obtain ⟨place, one⟩ := List.mem_filter.mp one
    obtain ⟨place', other⟩ := List.mem_filter.mp other
    exact orderly.handles_unique (leaves i place) (leaves j place') one other
  refine ⟨single, fun peer bytes packet read kind => ?_⟩
  have sole := receive_of_handling peer once leaves read kind (single packet)
  refine ⟨sole, fun others perm => ?_⟩
  have same := eq_of_perm_of_few (perm.filter (s.handles packet)) (single packet)
  have leaves' : ∀ i ∈ others, s.isLeaf i = true := fun i member => leaves i (perm.subset member)
  rw [receive_of_handling peer (perm.nodup_iff.mpr once) leaves' read kind
    (same ▸ single packet), same, sole]

/-- A service whose registration was ended, another for the same path, and an attempt to register
the first again. -/
def crowding : List Step :=
  [.createService (.plain "a" (.fixed [])), .unregister ⟨0⟩,
    .createService (.plain "/a" (.fixed [.echoPath])), .callService 0 .register]

def crowded : Session := crowding.foldl (fun s step => (s.perform step).1) (start 0 {} .millisecond)

set_option maxRecDepth 10000 in
/-- The second takes the request for the path, whichever of them is asked first. -/
theorem dispatch_orderless_crowded :
    let bytes : List UInt8 := [0x41, 1, 0, 9, 0x91, 0x61]
    ∃ packet, Packet.decode 128 bytes = .ok packet ∧
      [0, 1].filter (crowded.handles packet) = [1] ∧
      crowded.receive 1 bytes none (some [0, 1]) = crowded.receive 1 bytes none (some [1]) ∧
      crowded.receive 1 bytes none (some [1, 0]) = crowded.receive 1 bytes none (some [0, 1]) := by
  intro bytes
  obtain ⟨packet, read, head⟩ := Node.exists_read bytes
    (fun p => p.kind != .reset && [0, 1].filter (crowded.handles p) == [1]) (by decide +kernel)
  simp only [Bool.and_eq_true, bne_iff_ne, beq_iff_eq] at head
  have run : (start 0 {} .millisecond).Enrols _ crowded :=
    (((Enrols.refl.call _ rfl).call _ rfl).call _ rfl).call _ rfl
  obtain ⟨-, -, -, each⟩ := dispatch_orderless 0 {} .millisecond run (by decide +kernel)
  obtain ⟨-, received⟩ := each [0, 1] (by decide) (by decide +kernel)
  obtain ⟨alone, permuted⟩ := received 1 bytes packet read head.1
  rw [head.2] at alone
  exact ⟨packet, read, head.2, alone, permuted [1, 0] (List.Perm.swap 0 1 [])⟩

end Session
end CoapNode
