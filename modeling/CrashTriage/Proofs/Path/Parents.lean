import CrashTriage.Path
import CrashTriage.Proofs.Text.Cuts

/-
A path up to the end of one of its components has the components up to that one, so that a parent has all
components of its path but the last.
-/
namespace CrashTriage
namespace Path

open Text

variable {p q : Path} {segment : Text} {start : Nat} {front rest : List Span} {s : Span}

/-- The span of one segment that starts at a position, when the segment is a component there. -/
def spanOf? (start : Nat) (segment : Text) : Option Span :=
  if segment = [] then none
  else if segment = ['.'] then (if start = 0 then some ⟨.current, start + segment.length⟩ else none)
  else if segment = ['.', '.'] then some ⟨.parent, start + segment.length⟩
  else some ⟨.name segment, start + segment.length⟩

theorem segment_spans_cons (start : Nat) (segment : Text) (segments : List Text) :
    segmentSpans start (segment :: segments) =
      (spanOf? start segment).toList ++ segmentSpans (start + segment.length + 1) segments := by
  rw [segmentSpans, spanOf?]
  split
  · rfl
  · split
    · split <;> rfl
    · split <;> rfl

theorem span_of_stop (span : spanOf? start segment = some s) :
    s.stop = start + segment.length ∧ segment ≠ [] ∧ s.component ≠ .root := by
  unfold spanOf? at span
  split at span
  · cases span
  · rename_i nonempty
    split at span
    · split at span <;> cases span
      exact ⟨rfl, nonempty, nofun⟩
    · split at span <;> cases span <;> exact ⟨rfl, nonempty, nofun⟩

theorem take_past_slash (segment more : Text) (n : Nat) :
    (segment ++ '/' :: more).take (segment.length + 1 + n) = segment ++ '/' :: more.take n := by
  rw [Nat.add_assoc, List.take_length_add_append, Nat.add_comm 1 n, List.take_succ_cons]

/-- Cut at the end of a component, the segments have the components up to it. -/
theorem segment_spans_take (t : Text) (start : Nat) (front : List Span)
    (spans : segmentSpans start (split '/' t) = front ++ s :: rest) :
    start < s.stop ∧ segmentSpans start (split '/' (t.take (s.stop - start))) = front ++ [s] := by
  cases cut : splitOnce? '/' t with
  | none =>
    have free := split_once_none cut
    rw [split_without free, segment_spans_cons, segmentSpans, List.append_nil] at spans
    cases span : spanOf? start t with
    | none =>
      rw [span] at spans
      simp at spans
    | some only =>
      rw [span, Option.toList_some] at spans
      obtain ⟨rfl, same⟩ := List.append_eq_singleton_iff.mp spans.symm |>.resolve_right (by simp)
      obtain ⟨rfl, rfl⟩ := List.cons.inj same
      obtain ⟨stops, nonempty, -⟩ := span_of_stop span
      have positive := List.length_pos_iff.mpr nonempty
      have whole : t.take (s.stop - start) = t := List.take_of_length_le (by omega)
      rw [whole, split_without free, segment_spans_cons, span]
      exact ⟨by omega, rfl⟩
  | some parts =>
    obtain ⟨segment, more⟩ := parts
    obtain ⟨rfl, free⟩ := split_once_some cut
    have shorter : more.length < (segment ++ '/' :: more).length := by
      rw [List.length_append, List.length_cons]
      omega
    rw [split_at_separator free, segment_spans_cons] at spans
    -- a span after the first slash is one of the rest, which starts where the segment and the slash end
    have later (front : List Span)
        (inRest : segmentSpans (start + segment.length + 1) (split '/' more) = front ++ s :: rest) :
        start < s.stop ∧ segmentSpans start (split '/' ((segment ++ '/' :: more).take (s.stop - start))) =
          (spanOf? start segment).toList ++ (front ++ [s]) := by
      obtain ⟨after, cutThere⟩ := segment_spans_take more (start + segment.length + 1) front inRest
      have length : s.stop - start = segment.length + 1 + (s.stop - (start + segment.length + 1)) := by omega
      rw [length, take_past_slash, split_at_separator free, segment_spans_cons, cutThere]
      exact ⟨by omega, rfl⟩
    cases span : spanOf? start segment with
    | none =>
      rw [span, Option.toList_none, List.nil_append] at spans
      have cutThere := later front spans
      rwa [span, Option.toList_none, List.nil_append] at cutThere
    | some first =>
      rw [span, Option.toList_some, List.singleton_append] at spans
      cases front with
      | nil =>
        obtain ⟨rfl, -⟩ := List.cons.inj spans
        obtain ⟨stops, nonempty, -⟩ := span_of_stop span
        have positive := List.length_pos_iff.mpr nonempty
        have length : first.stop - start = segment.length := by omega
        rw [length, List.take_left, split_without free, segment_spans_cons, span]
        exact ⟨by omega, rfl⟩
      | cons other front =>
        obtain ⟨rfl, inRest⟩ := List.cons.inj spans
        have cutThere := later front inRest
        rwa [span, Option.toList_some, List.singleton_append] at cutThere
termination_by t.length

theorem segment_not_root (start : Nat) (segments : List Text) :
    ∀ s ∈ segmentSpans start segments, s.component ≠ .root := by
  induction segments generalizing start with
  | nil => simp [segmentSpans]
  | cons segment segments ih =>
    rw [segment_spans_cons]
    intro s member
    rcases List.mem_append.mp member with here | later
    · exact (span_of_stop (Option.mem_toList.mp here)).2.2
    · exact ih _ s later

theorem absolute_take {n : Nat} (positive : 0 < n) (p : Path) : isAbsolute (p.take n) = isAbsolute p := by
  obtain ⟨n, rfl⟩ := Nat.exists_eq_succ_of_ne_zero (Nat.ne_of_gt positive)
  cases p with
  | nil => rfl
  | cons c p =>
    rw [Nat.succ_eq_add_one, List.take_succ_cons]
    by_cases slash : c = '/'
    · rw [slash]
      rfl
    · simp [isAbsolute, slash]

/-- A path up to the end of a component has the components up to it. -/
theorem components_take (p : Path) (parts : spans p = front ++ s :: rest) :
    components (p.take s.stop) = (front ++ [s]).map (·.component) := by
  suffices spans (p.take s.stop) = front ++ [s] by rw [components, this]
  have cut (front : List Span) (inSegments : segmentSpans 0 (split '/' p) = front ++ s :: rest) :=
    segment_spans_take p 0 front inSegments
  unfold spans at parts ⊢
  cases absolute : isAbsolute p with
  | false =>
    rw [absolute] at parts
    obtain ⟨positive, same⟩ := cut front parts
    rw [absolute_take positive, absolute]
    exact same
  | true =>
    rw [absolute, if_pos rfl, List.singleton_append] at parts
    cases front with
    | nil =>
      obtain ⟨rfl, -⟩ := List.cons.inj parts
      unfold isAbsolute at absolute
      split at absolute
      · rfl
      · cases absolute
    | cons first front =>
      obtain ⟨rfl, inSegments⟩ := List.cons.inj parts
      obtain ⟨positive, same⟩ := cut front inSegments
      rw [Nat.sub_zero] at same
      rw [absolute_take positive, absolute, same]
      rfl

theorem parent_some (parent : parent? p = some q) :
    ∃ c, c ≠ .root ∧ components p = components q ++ [c] := by
  have forward : spans p = (spans p).reverse.reverse := (List.reverse_reverse _).symm
  unfold parent? at parent
  split at parent
  · cases parent
  · cases parent
  · rename_i last notRoot backward
    cases parent
    refine ⟨last.component, fun root => notRoot last.stop (by rw [← root]), ?_⟩
    rw [components, forward, backward]
    rfl
  · rename_i last before more notRoot backward
    cases parent
    refine ⟨last.component, fun root => notRoot last.stop (by rw [← root]), ?_⟩
    rw [backward, List.reverse_cons, List.reverse_cons, List.append_assoc, List.singleton_append] at forward
    rw [components_take p forward, components, forward, List.append_cons, List.map_append]
    rfl

/-- The root is a component at the head only. -/
theorem root_at_head {front : List Component} (last : components p = front ++ [.root]) : front = [] := by
  have names (front : List Component) :
      (segmentSpans 0 (split '/' p)).map (·.component) ≠ front ++ [.root] := by
    intro same
    have member : Component.root ∈ (segmentSpans 0 (split '/' p)).map (·.component) := by simp [same]
    obtain ⟨s, inSegments, root⟩ := List.mem_map.mp member
    exact segment_not_root 0 _ s inSegments root
  rw [components, spans, List.map_append] at last
  cases absolute : isAbsolute p with
  | false =>
    rw [absolute] at last
    exact absurd last (names front)
  | true =>
    rw [absolute] at last
    cases front with
    | nil => rfl
    | cons first front => exact absurd (List.cons.inj last).2 (names front)

theorem parent_none (orphan : parent? p = none) : components p = [] ∨ components p = [.root] := by
  have forward : spans p = (spans p).reverse.reverse := (List.reverse_reverse _).symm
  unfold parent? at orphan
  split at orphan
  · rename_i none
    exact .inl (by rw [components, forward, none]; rfl)
  · rename_i stop more backward
    have last : components p = more.reverse.map (·.component) ++ [.root] := by
      rw [components, forward, backward, List.reverse_cons, List.map_append]
      rfl
    rw [root_at_head last] at last
    exact .inr last
  · cases orphan
  · cases orphan

end Path
end CrashTriage
