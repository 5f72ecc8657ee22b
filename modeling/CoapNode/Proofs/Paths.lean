import CoapNode.Proofs.Routing
/-! What comparing two paths decides. A path lives below another one if the other followed by a
slash begins it; a walk along both paths tells that from equality, over their characters as well as
over their bytes. Being equal and living below have the laws that a table of resources and the
routing of requests rely on. -/
namespace CoapNode

/-! ## Encoded texts -/

theorem textBytes_append (s t : String) : textBytes (s ++ t) = textBytes s ++ textBytes t := by
  simp [textBytes]

/-- The bytes of a text begin with those of another exactly if the text begins with the other, since
no character's encoding begins another's. -/
theorem textBytes_prefix {s t : String} :
    textBytes s <+: textBytes t ↔ s.toList <+: t.toList := by
  constructor
  · rintro ⟨rest, whole⟩
    have same : s.toByteArray ++ rest.toByteArray = t.toByteArray := by
      apply ByteArray.ext
      apply Array.toList_inj.mp
      simpa [textBytes] using whole
    exact List.isPrefix_of_utf8Encode_append_eq_utf8Encode rest.toByteArray (by simpa using same)
  · rintro ⟨rest, whole⟩
    have split : t = s ++ .ofList rest := by
      rw [← String.toList_inj, String.toList_append, String.toList_ofList, whole]
    rw [split, textBytes_append]
    exact List.prefix_append _ _

theorem textBytes_below {s t : String} :
    textBytes s ++ [47] <+: textBytes t ↔ s.toList ++ ['/'] <+: t.toList := by
  have slash : textBytes "/" = [47] := by decide
  rw [← slash, ← textBytes_append, textBytes_prefix, String.toList_append]
  rfl

namespace PathRelation

/-! ## What relations say -/

section

variable {α : Type} {separator a b : α} {left right : List α} {x y : PathRelation}

/-- What a relation says of two sequences with this separator. -/
def Holds (separator : α) (left right : List α) : PathRelation → Prop
  | equal => left = right
  | leftBelow => right ++ [separator] <+: left
  | rightBelow => left ++ [separator] <+: right
  | unrelated => left ≠ right ∧ ¬ right ++ [separator] <+: left ∧ ¬ left ++ [separator] <+: right

def swap : PathRelation → PathRelation
  | leftBelow => rightBelow
  | rightBelow => leftBelow
  | other => other

theorem Holds.swap (h : x.Holds separator left right) : x.swap.Holds separator right left := by
  cases x with
  | equal => exact Eq.symm h
  | leftBelow | rightBelow => exact h
  | unrelated =>
    obtain ⟨differ, above, below⟩ := h
    exact ⟨Ne.symm differ, below, above⟩

theorem below_longer (below : left ++ [separator] <+: right) : left.length < right.length := by
  simpa using below.length_le

theorem Holds.unique (h : x.Holds separator left right) (h' : y.Holds separator left right) :
    x = y := by
  have longer : left ++ [separator] <+: right → left.length < right.length := below_longer
  have longer' : right ++ [separator] <+: left → right.length < left.length := below_longer
  unfold Holds at h h'
  cases x <;> cases y <;> grind

theorem Holds.trans {middle : List α} (h : x.Holds separator left middle) (related : x ≠ unrelated)
    (h' : x.Holds separator middle right) : x.Holds separator left right := by
  cases x with
  | equal => exact Eq.trans h h'
  | leftBelow => exact (List.IsPrefix.trans h' (List.prefix_append _ _)).trans h
  | rightBelow => exact (List.IsPrefix.trans h (List.prefix_append _ _)).trans h'
  | unrelated => exact absurd rfl related

theorem holds_cons : x.Holds separator (a :: left) (a :: right) ↔ x.Holds separator left right := by
  cases x <;> simp [Holds]

end

/-! ## Walking along two paths -/

theorem ofChars_holds (left right : List Char) :
    (ofChars left right).Holds '/' left right := by
  induction left generalizing right with
  | nil =>
    cases right with
    | nil => rfl
    | cons r rest =>
      by_cases slash : r = '/'
      · simp [ofChars, Holds, slash]
      · simp [ofChars, Holds, slash, Ne.symm slash]
  | cons l left ih =>
    cases right with
    | nil =>
      by_cases slash : l = '/'
      · simp [ofChars, Holds, slash]
      · simp [ofChars, Holds, slash, Ne.symm slash]
    | cons r right =>
      by_cases same : l = r
      · subst same
        simpa [ofChars] using holds_cons.mpr (ih right)
      · simp [ofChars, Holds, same, Ne.symm same]

/-- Compares encoded paths from a position on; up to there they are the same. -/
def ofBytes (left right : List UInt8) (i : Nat) : PathRelation :=
  match here : left[i]?, right[i]? with
  | none, none => equal
  | none, some 47 => rightBelow
  | some 47, none => leftBelow
  | some l, some r => if l = r then ofBytes left right (i + 1) else unrelated
  | _, _ => unrelated
termination_by left.length - i
decreasing_by
  have inside := (List.getElem?_eq_some_iff.mp here).1
  omega

theorem ofBytes_holds (left right : List UInt8) (i : Nat) :
    (ofBytes left right i).Holds 47 (left.drop i) (right.drop i) := by
  have ended : ∀ {bytes : List UInt8} {i : Nat}, bytes[i]? = none → bytes.drop i = [] :=
    fun none => List.drop_eq_nil_of_le (List.getElem?_eq_none_iff.mp none)
  have begun : ∀ {bytes : List UInt8} {i : Nat} {b : UInt8}, bytes[i]? = some b →
      bytes.drop i = b :: bytes.drop (i + 1) := by
    intro bytes i b some
    rw [List.drop_eq_getElem?_toList_append, some]
    rfl
  fun_induction ofBytes left right i with
  | case1 i none none' => rw [ended none, ended none']; rfl
  | case2 i none slash => rw [ended none, begun slash]; simp [Holds]
  | case3 i slash none => rw [ended none, begun slash]; simp [Holds]
  | case4 i b here here' ih => rw [begun here, begun here']; exact holds_cons.mpr ih
  | case5 i l r here here' differ =>
    rw [begun here, begun here']
    simp [Holds, differ, Ne.symm differ]
  | case6 i both slash slash' neither =>
    -- one path ends here, and what the other goes on with is no slash
    cases here : left[i]? with
    | none =>
      cases here' : right[i]? with
      | none => exact absurd here' (both here)
      | some r =>
        have other : 47 ≠ r := fun same => slash here (same ▸ here')
        rw [ended here, begun here']
        simp [Holds, other]
    | some l =>
      cases here' : right[i]? with
      | none =>
        have other : 47 ≠ l := fun same => slash' (same ▸ here) here'
        rw [begun here, ended here']
        simp [Holds, other]
      | some r => exact absurd here' (neither l r here)

theorem holds_textBytes {s t : String} {x : PathRelation} :
    x.Holds 47 (textBytes s) (textBytes t) ↔ x.Holds '/' s.toList t.toList := by
  have same : textBytes s = textBytes t ↔ s.toList = t.toList :=
    ⟨fun equal => congrArg String.toList (textBytes_injective equal),
      fun equal => congrArg textBytes (String.toList_inj.mp equal)⟩
  cases x <;> simp only [Holds, textBytes_below, same, ne_eq]

end PathRelation

theorem trimSlashes_spec (path : String) : ∃ slashes,
    path.toList = List.replicate slashes '/' ++ (trimSlashes path).toList ∧
      (trimSlashes path).toList.head? ≠ some '/' := by
  rw [trimSlashes, dropLeading, String.toList_ofList]
  refine ⟨(path.toList.takeWhile (· == '/')).length, ?_, ?_⟩
  · have front : path.toList.takeWhile (· == '/') =
        List.replicate (path.toList.takeWhile (· == '/')).length '/' := by
      rw [List.eq_replicate_iff]
      exact ⟨rfl, fun c member => by simpa using List.mem_takeWhile_imp member⟩
    rw [← front, List.takeWhile_append_dropWhile]
  · intro slash
    have first := List.head?_dropWhile_not (· == '/') path.toList
    simp [slash] at first

theorem relatePaths_eq_iff {l r : String} {x : PathRelation} : relatePaths l r = x ↔
    x.Holds '/' (trimSlashes l).toList (trimSlashes r).toList := by
  have holds := PathRelation.ofChars_holds (trimSlashes l).toList (trimSlashes r).toList
  constructor
  · rintro rfl
    exact holds
  · exact holds.unique

/-- Comparing the bytes of two paths, one position after the other, comes to the same. -/
theorem relatePaths_eq_ofBytes (l r : String) : relatePaths l r =
    .ofBytes (textBytes (trimSlashes l)) (textBytes (trimSlashes r)) 0 := by
  rw [relatePaths_eq_iff, ← PathRelation.holds_textBytes]
  exact PathRelation.ofBytes_holds _ _ 0

/-- Comparing paths ends with the one relation that holds between them without their leading
slashes: they are equal, or one followed by a slash begins the other, or neither is the case. From
the other side it is the same relation swapped. Being equal is an equivalence, living below is
transitive, and equal paths stand in the same relation to all others. -/
theorem relatePaths_decides :
    (∀ path, ∃ slashes, path.toList = List.replicate slashes '/' ++ (trimSlashes path).toList ∧
      (trimSlashes path).toList.head? ≠ some '/') ∧
    (∀ l r x, relatePaths l r = x ↔ x.Holds '/' (trimSlashes l).toList (trimSlashes r).toList) ∧
    (∀ l r, relatePaths l r = .ofBytes (textBytes (trimSlashes l)) (textBytes (trimSlashes r)) 0) ∧
    (∀ (l r : List Char) (x y : PathRelation), x.Holds '/' l r → y.Holds '/' l r → x = y) ∧
    (∀ l r, relatePaths r l = (relatePaths l r).swap) ∧
    Equivalence (fun l r => relatePaths l r = .equal) ∧
    (∀ x, x ≠ .unrelated → ∀ l m r, relatePaths l m = x → relatePaths m r = x →
      relatePaths l r = x) ∧
    ∀ l l' r r', relatePaths l l' = .equal → relatePaths r r' = .equal →
      relatePaths l r = relatePaths l' r' := by
  have swapped : ∀ l r, relatePaths r l = (relatePaths l r).swap := fun l r =>
    relatePaths_eq_iff.mpr (relatePaths_eq_iff.mp rfl).swap
  have chained : ∀ x, x ≠ .unrelated → ∀ l m r, relatePaths l m = x → relatePaths m r = x →
      relatePaths l r = x := fun x related l m r first second =>
    relatePaths_eq_iff.mpr
      ((relatePaths_eq_iff.mp first).trans related (relatePaths_eq_iff.mp second))
  refine ⟨trimSlashes_spec, fun l r x => relatePaths_eq_iff, relatePaths_eq_ofBytes,
    fun l r x y => PathRelation.Holds.unique, swapped, ⟨fun l => ?_, fun {l r} equal => ?_,
    fun {l m r} => chained .equal (by decide) l m r⟩, chained, fun l l' r r' equal equal' => ?_⟩
  · exact relatePaths_eq_equal.mpr rfl
  · rw [swapped, equal]
    rfl
  · unfold relatePaths
    rw [relatePaths_eq_equal.mp equal, relatePaths_eq_equal.mp equal']

/-- Slashes in front count for nothing, but inside a path each one counts. -/
theorem relatePaths_decides_below :
    relatePaths "/sensors" "sensors/é" = .rightBelow ∧
      relatePaths "sensors/é" "//sensors/é//raw" = .rightBelow ∧
      relatePaths "/sensors" "//sensors/é//raw" = .rightBelow ∧
      relatePaths "sensors/é/raw" "//sensors/é//raw" = .unrelated := by
  obtain ⟨-, -, -, -, -, -, chained, -⟩ := relatePaths_decides
  have first : relatePaths "/sensors" "sensors/é" = .rightBelow := by decide +kernel
  have second : relatePaths "sensors/é" "//sensors/é//raw" = .rightBelow := by decide +kernel
  exact ⟨first, second, chained .rightBelow (by decide) _ _ _ first second, by decide +kernel⟩

end CoapNode
