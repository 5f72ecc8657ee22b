import CoapNode.Service.Endpoint
import CoapNode.Proofs.Node.Enrolment
import CoapNode.Proofs.Packet.RoundTrip
import CoapNode.Proofs.Packet.Texts
/-! Which requests an endpoint accepts. Paths are compared as joined text, character by
character; on clean segments that is comparing the lists of segments, since joining them can be
undone. -/
namespace CoapNode

/-! ## Joined segments -/

section

variable {d : Char} {left right : List (List Char)}

theorem Clean.head?_ne (clean : Clean d left) : ([d].intercalate left).head? ≠ some d := by
  cases left with
  | nil => simp
  | cons first rest =>
    obtain ⟨filled, apart⟩ := clean first (List.mem_cons_self ..)
    obtain ⟨c, cs, rfl⟩ := List.exists_cons_of_ne_nil filled
    rw [List.intercalate_cons_cons_left, List.head?_cons, ne_eq, Option.some.injEq]
    rintro rfl
    exact apart (List.mem_cons_self ..)

theorem Clean.joined_eq_iff (clean : Clean d left) (clean' : Clean d right) :
    [d].intercalate left = [d].intercalate right ↔ left = right := by
  constructor
  · intro same
    rw [← segmentsOf_intercalate clean, same, segmentsOf_intercalate clean']
  · rintro rfl
    rfl

theorem Clean.joined_below_iff (clean : Clean d left) (clean' : Clean d right) :
    (∃ rest, [d].intercalate right = [d].intercalate left ++ d :: rest) ↔
      left ≠ [] ∧ left <+: right ∧ left ≠ right := by
  constructor
  · rintro ⟨rest, below⟩
    have front : right = left ++ segmentsOf d rest := by
      rw [← segmentsOf_intercalate clean', below, segmentsOf_append, segmentsOf_intercalate clean]
    refine ⟨?_, ⟨_, front.symm⟩, ?_⟩
    · rintro rfl
      apply clean'.head?_ne
      rw [below]
      rfl
    · rintro rfl
      have lengths := congrArg List.length below
      rw [List.length_append, List.length_cons] at lengths
      omega
  · rintro ⟨some, ⟨more, rfl⟩, proper⟩
    have longer : more ≠ [] := by
      rintro rfl
      simp at proper
    have apart := fun segment member => (clean' segment member).2
    have split : ([d].intercalate left ++ d :: [d].intercalate more).splitOn d = left ++ more := by
      rw [List.splitOn_append_cons_self,
        List.splitOn_intercalate d (fun x member => apart x (List.mem_append_left _ member)) some,
        List.splitOn_intercalate d (fun x member => apart x (List.mem_append_right _ member))
          longer]
    exact ⟨[d].intercalate more, by rw [← split, List.intercalate_splitOn]⟩

end

/-! ## Related paths -/

theorem PathRelation.ofChars_eq_rightBelow {l r : List Char} :
    PathRelation.ofChars l r = .rightBelow ↔ ∃ rest, r = l ++ '/' :: rest := by
  induction l generalizing r with
  | nil =>
    cases r with
    | nil => simp [ofChars]
    | cons c r => simp [ofChars]
  | cons c l ih =>
    cases r with
    | nil => simp only [ofChars]; split <;> simp
    | cons c' r =>
      by_cases same : c = c'
      · simp [ofChars, same, ih]
      · simp [ofChars, same, eq_comm]

/-- No two slashes of the path stand together, and none at its end; how many there are at its
front does not matter. -/
def TidyPath (path : String) : Prop :=
  trimSlashes path = "" ∨ [] ∉ (trimSlashes path).toList.splitOn '/'

def pathSegments (path : String) : List (List Char) := segmentsOf '/' path.toList

theorem pathSegments_trimSlashes (path : String) :
    pathSegments (trimSlashes path) = pathSegments path := by
  rw [pathSegments, trimSlashes, dropLeading, String.toList_ofList]
  exact segmentsOf_dropWhile '/' path.toList

theorem TidyPath.joined {path : String} (tidy : TidyPath path) :
    (trimSlashes path).toList = ['/'].intercalate (pathSegments path) := by
  rw [← pathSegments_trimSlashes, pathSegments]
  rcases tidy with empty | whole
  · rw [empty]
    rfl
  · exact (intercalate_segmentsOf whole).symm

theorem trimSlashes_joined {path : String} {segments : List (List Char)}
    (clean : Clean '/' segments) (joined : path.toList = ['/'].intercalate segments) :
    (trimSlashes path).toList = ['/'].intercalate segments := by
  have start := clean.head?_ne
  rw [trimSlashes, dropLeading, String.toList_ofList, joined]
  generalize ['/'].intercalate segments = chars at start
  cases chars with
  | nil => rfl
  | cons c rest => exact List.dropWhile_cons_of_neg (by simpa using start)

/-- On a tidy path and on joined segments, comparing paths is comparing segments. -/
theorem relatePaths_segments {left right : String} {segments : List (List Char)}
    (tidy : TidyPath left) (clean : Clean '/' segments)
    (joined : right.toList = ['/'].intercalate segments) :
    (relatePaths left right = .equal ↔ segments = pathSegments left) ∧
      (relatePaths left right = .rightBelow ↔ pathSegments left ≠ [] ∧
        pathSegments left <+: segments ∧ pathSegments left ≠ segments) := by
  have own : Clean '/' (pathSegments left) := segmentsOf_clean '/' left.toList
  rw [relatePaths, tidy.joined, trimSlashes_joined clean joined, PathRelation.ofChars_eq_equal,
    PathRelation.ofChars_eq_rightBelow, own.joined_eq_iff clean, own.joined_below_iff clean]
  exact ⟨eq_comm, Iff.rfl⟩

/-! ## Requests with a path -/

namespace Packet

variable {p q : Message} {t : String}

/-- The packet's path is as a call that set it left it. What was done to the packet before, and
to its other parts after, does not matter. -/
def HasPath (p : Message) (t : String) : Prop :=
  ∃ (edits : List PacketEdit) (q : Message),
    (reach 128 edits).edited (.setUriPath t) = .ok q ∧ p.segments .uriPath = q.segments .uriPath

theorem Canonical.uriPath_joined (h : p.Canonical) (path : p.HasPath t) :
    ∃ s, p.uriPath = .ok s ∧ s.toList = ['/'].intercalate (pathSegments t) := by
  obtain ⟨edits, q, set, same⟩ := path
  have visible : isFencepost OptionNumber.uriPath = false := by decide
  have stored := (reach_canonical 128 edits).setPieces_segments visible
    (by decide : OptionNumber.uriPath.delimiter = some '/') set
  have read := h.textOrEmpty_eq (Nat.le_refl _) (by decide) visible (by decide)
    (same.trans stored)
  refine ⟨_, read, ?_⟩
  have pieces : (pathPieces '/' (trimSlashes t)).map String.toList = pathSegments t := by
    rw [pathPieces_eq, ← pathSegments_trimSlashes t, List.map_map, pathSegments]
    simp [Function.comp_def]
  rw [String.toList_intercalate, pieces]
  rfl

theorem Canonical.decode_keeps (h : p.Canonical) (read : decode 128 p.datagram = .ok q) :
    q.Canonical ∧ q.isRequest = p.isRequest ∧ ∀ n, q.segments n = p.segments n := by
  obtain ⟨-, rfl⟩ := h.decode_datagram_iff.mp read
  refine ⟨h.of_same_content rfl rfl rfl rfl, ?_, fun _ => rfl⟩
  simp only [isRequest, Code.isRequest, code_toByte_ofByte]

end Packet

namespace Endpoint

theorem accepts_iff {e : Endpoint} {p : Message} {s : String} (request : p.isRequest = true)
    (read : p.uriPath = .ok s) : e.accepts p = true ↔ relatePaths e.path s = .equal ∨
      e.subresources = true ∧ relatePaths e.path s = .rightBelow := by
  simp only [accepts, request, read]
  cases relatePaths e.path s <;> simp

/-- An endpoint accepts a request that came over the wire exactly if the segments of the path set
in it are the endpoint's own, or, where it takes subresources, continue them. Whatever was set
fits the buffer it is read into; only a packet of another version does not come over. -/
theorem accepts_iff_segments (edits : List PacketEdit) (t : String) (e : Endpoint)
    (tidy : TidyPath e.path) (request : (Packet.reach 128 edits).isRequest = true)
    (path : (Packet.reach 128 edits).HasPath t) :
    let p := Packet.reach 128 edits
    (p.version = protocolVersion → ∀ buffer : List UInt8, p.serializedLength ≤ buffer.length →
      ∃ bytes n q, p.serialize buffer = .ok (bytes, n) ∧
        Packet.decode 128 (bytes.take n) = .ok q) ∧
    ∀ buffer bytes n q, p.serialize buffer = .ok (bytes, n) →
      Packet.decode 128 (bytes.take n) = .ok q →
      (e.accepts q = true ↔ pathSegments t = pathSegments e.path ∨
        e.subresources = true ∧ pathSegments e.path ≠ [] ∧
          pathSegments e.path <+: pathSegments t ∧ pathSegments e.path ≠ pathSegments t) := by
  intro p
  have h : p.Canonical := Packet.reach_canonical 128 edits
  constructor
  · intro version buffer room
    have written : p.serialize buffer =
        .ok (p.datagram ++ buffer.drop p.serializedLength, p.serializedLength) := if_pos room
    have wire : p.version <<< 6 = protocolVersion <<< 6 := by rw [version]
    have read := h.decode_datagram_iff.mpr ⟨wire, rfl⟩
    rw [← Packet.take_of_serialize written] at read
    exact ⟨_, _, _, written, read⟩
  · intro buffer bytes n q written read
    rw [Packet.take_of_serialize written] at read
    obtain ⟨h', requests, segments⟩ := h.decode_keeps read
    obtain ⟨edits', set, done, same⟩ := path
    have path' : q.HasPath t := ⟨edits', set, done, (segments _).trans same⟩
    obtain ⟨s, read', joined⟩ := h'.uriPath_joined path'
    obtain ⟨equal, below⟩ := relatePaths_segments tidy (segmentsOf_clean '/' t.toList) joined
    rw [accepts_iff (requests.trans request) read', equal, below]
    rfl

/-- A path set with a slash too many lies below one with a leading slash. -/
theorem accepts_iff_segments_below :
    let edits := [.setUriPath "/sensors//temp1", .setCode Code.get]
    let p := Packet.reach 128 edits
    let e : Endpoint := ⟨"/sensors", none, true, default⟩
    TidyPath e.path ∧ p.isRequest = true ∧ p.HasPath "/sensors//temp1" ∧
      p.version = protocolVersion ∧
      ∃ bytes n q, p.serialize (List.replicate 32 0) = .ok (bytes, n) ∧
        Packet.decode 128 (bytes.take n) = .ok q ∧ e.accepts q = true := by
  intro edits p e
  have tidy : TidyPath e.path := .inr (by decide)
  have request : p.isRequest = true := by decide +kernel
  have path : p.HasPath "/sensors//temp1" :=
    ⟨[], Packet.reach 128 [.setUriPath "/sensors//temp1"], by decide +kernel, by decide +kernel⟩
  have version : p.version = protocolVersion := by decide +kernel
  obtain ⟨read, accepted⟩ := accepts_iff_segments edits "/sensors//temp1" e tidy request path
  obtain ⟨bytes, n, q, written, back⟩ := read version (List.replicate 32 0) (by decide +kernel)
  have below : e.subresources = true ∧ pathSegments e.path ≠ [] ∧
      pathSegments e.path <+: pathSegments "/sensors//temp1" ∧
      pathSegments e.path ≠ pathSegments "/sensors//temp1" := by
    decide +kernel
  exact ⟨tidy, request, path, version, bytes, n, q, written, back,
    (accepted _ bytes n q written back).mpr (.inr below)⟩

end Endpoint
end CoapNode
