import Mathlib.Data.List.Forall2
import Scriptlet.Proofs.Indices
import Scriptlet.Proofs.Walks

/-!
# Reports

Every diagnostic is about one token: the parser found it behind its own token where it wanted
another, or it stood on it and could make nothing of it. Since a problem is followed by a step
before there is another one, the diagnostics come in the order of their tokens, and a token has at
most one of either kind, the former before the latter.
-/

namespace Scriptlet

variable {α : Type}

/-- Where a token is seen that a diagnostic is about. -/
inductive Sight where
  /-- Behind the token at which the parser stands. -/
  | ahead
  /-- The parser stands at it. -/
  | here
deriving DecidableEq

/-- A token is seen ahead before the parser stands at it. -/
def Sight.rank : Sight → Nat
  | ahead => 0
  | here => 1

/-- The number of a token, and where it is seen. -/
structure Sighting where
  index : Nat
  sight : Sight
deriving DecidableEq

/-- Sightings in the order in which a parser comes to them. -/
def Sighting.rank (sighting : Sighting) : Nat := 2 * sighting.index + sighting.sight.rank

/-- The diagnostic is about the token: it has its place and quotes it. -/
inductive Diagnostic.About (token : Token Location) : Sight → Diagnostic → Prop where
  | unexpected {wanted : Kind} (differs : token.kind ≠ wanted) :
      About token .ahead
        ⟨"expected next token to be " ++ wanted.text ++ ", got " ++ token.kind.text ++ " '" ++
          token.literal ++ "' instead", token.location⟩
  | noExpression (unfit : token.kind ∉ Parse.operandKinds) :
      About token .here
        ⟨"no prefix parse function for " ++ token.kind.text ++ " '" ++ token.literal ++ "'",
          token.location⟩
  | tooLarge (isInteger : token.kind = .integer) :
      About token .here ⟨"could not parse " ++ token.literal ++ " as integer literal",
        token.location⟩

namespace TokenStream

variable (stream : TokenStream α)

theorem current_drop (i : Nat) : (stream.drop i).current = stream.nth i := by
  rw [current, drop, nth, List.headD_eq_head?_getD, List.head?_drop]
  rfl

theorem peek_drop (i : Nat) : (stream.drop i).peek = stream.nth (i + 1) := by
  rw [peek, advance_drop, current_drop]

end TokenStream

/-- The least rank of a sighting that may still come where a parser stands at the token with a
number: that of this token, or, if there was a problem already, that of the one behind it. -/
def leastRank (index : Nat) (fresh : Bool) : Nat :=
  if fresh then 2 * index + 1 else 2 * index + 3

/-- An event that is no report leaves behind what cannot come any more, and a problem is about a
token that could come before it and cannot come after it. -/
theorem ParseEvent.Occurs.sighting {stream : TokenStream Location} {index : Nat} {fresh : Bool}
    {event : ParseEvent Location} {next : Standing Location}
    (occurs : event.Occurs ⟨stream.drop index, fresh⟩ next) :
    ∃ index' fresh', next = ⟨stream.drop index', fresh'⟩ ∧
      (event.problem? = none ∧ leastRank index fresh ≤ leastRank index' fresh' ∨
        ∃ (problem : Problem Location) (sighting : Sighting), event.problem? = some problem ∧
          (Diagnostic.ofProblem problem).About (stream.nth sighting.index) sighting.sight ∧
          leastRank index fresh ≤ sighting.rank ∧ sighting.rank < leastRank index' fresh') := by
  cases occurs with
  | moved =>
    refine ⟨index + 1, true, by rw [TokenStream.advance_drop], .inl ⟨rfl, ?_⟩⟩
    unfold leastRank
    split <;> simp only [if_true] <;> omega
  | entered _ => exact ⟨index, fresh, rfl, .inl ⟨rfl, Nat.le_refl _⟩⟩
  | settled _ => exact ⟨index, fresh, rfl, .inl ⟨rfl, Nat.le_refl _⟩⟩
  | opened => exact ⟨index, fresh, rfl, .inl ⟨rfl, Nat.le_refl _⟩⟩
  | closed => exact ⟨index, fresh, rfl, .inl ⟨rfl, Nat.le_refl _⟩⟩
  | unexpected differs =>
    refine ⟨index, false, rfl, .inr ⟨_, ⟨index + 1, .ahead⟩, rfl, ?_, ?_, ?_⟩⟩
    · rw [← TokenStream.peek_drop]
      exact .unexpected differs
    · show 2 * index + 1 ≤ 2 * (index + 1) + 0
      omega
    · show 2 * (index + 1) + 0 < 2 * index + 3
      omega
  | noExpression unfit =>
    refine ⟨index, false, rfl, .inr ⟨_, ⟨index, .here⟩, rfl, ?_, Nat.le_refl _, ?_⟩⟩
    · rw [← TokenStream.current_drop]
      exact .noExpression unfit
    · show 2 * index + 1 < 2 * index + 3
      omega
  | tooLarge isInteger =>
    refine ⟨index, false, rfl, .inr ⟨_, ⟨index, .here⟩, rfl, ?_, Nat.le_refl _, ?_⟩⟩
    · rw [← TokenStream.current_drop]
      exact .tooLarge isInteger
    · show 2 * index + 1 < 2 * index + 3
      omega

/-- The problems of a walk are about tokens that are sighted one after the other. -/
theorem Walk.exists_sightings {stream : TokenStream Location} {index : Nat} {fresh : Bool}
    {log : List (ParseEvent Location)} {place last : Standing Location} (walk : Walk place log last)
    (stands : place = ⟨stream.drop index, fresh⟩) : ∃ sightings : List Sighting,
      List.Forall₂ (fun sighting problem =>
          (Diagnostic.ofProblem problem).About (stream.nth sighting.index) sighting.sight)
        sightings (log.filterMap ParseEvent.problem?) ∧
      sightings.Pairwise (fun earlier later => earlier.rank < later.rank) ∧
      ∀ sighting ∈ sightings, leastRank index fresh ≤ sighting.rank := by
  induction walk generalizing index fresh with
  | stay _ => exact ⟨[], .nil, .nil, by simp⟩
  | step occurs _ ih =>
    subst stands
    obtain ⟨index', fresh', rfl, event⟩ := occurs.sighting
    obtain ⟨sightings, about, increasing, later⟩ := ih rfl
    rcases event with ⟨silent, further⟩ | ⟨problem, sighting, reported, quotes, may, passed⟩
    · rw [List.filterMap_cons_none silent]
      refine ⟨sightings, about, increasing, fun other member => ?_⟩
      exact Nat.le_trans further (later other member)
    · rw [List.filterMap_cons_some reported]
      refine ⟨sighting :: sightings, .cons quotes about, ?_, ?_⟩
      · refine List.pairwise_cons.mpr ⟨fun other member => ?_, increasing⟩
        exact Nat.lt_of_lt_of_le passed (later other member)
      · refine List.forall_mem_cons.mpr ⟨may, fun other member => ?_⟩
        exact Nat.le_trans may (Nat.le_of_lt (Nat.lt_of_lt_of_le passed (later other member)))

/-- Of two sightings the one of lower rank is not of a later token, and if they are of one token, it
is the one ahead. -/
theorem Sighting.of_rank_lt {earlier later : Sighting} (before : earlier.rank < later.rank) :
    earlier.index ≤ later.index ∧
      (earlier.index = later.index → earlier.sight = .ahead ∧ later.sight = .here) := by
  obtain ⟨first, sight⟩ := earlier
  obtain ⟨second, sight'⟩ := later
  cases sight <;> cases sight' <;> simp only [rank, Sight.rank] at before ⊢ <;> grind

/-- Sightings of one token that come one after the other are at most one ahead and one here. -/
theorem Sighting.sublist_of_increasing {sightings : List Sighting} {index : Nat}
    (same : ∀ sighting ∈ sightings, sighting.index = index)
    (increasing : sightings.Pairwise fun earlier later => earlier.rank < later.rank) :
    sightings.Sublist [⟨index, .ahead⟩, ⟨index, .here⟩] := by
  match sightings with
  | [] => exact List.nil_sublist _
  | [⟨_, sight⟩] =>
    obtain rfl : _ = index := by simpa using same
    cases sight <;> simp
  | first :: second :: rest =>
    obtain ⟨before_others, increasing_rest⟩ := List.pairwise_cons.mp increasing
    have same_second := same second (by simp)
    have pair := (of_rank_lt (before_others second (by simp))).2
      ((same first (by simp)).trans same_second.symm)
    cases rest with
    | nil =>
      obtain ⟨_, _⟩ := first
      obtain ⟨_, _⟩ := second
      simp_all
    | cons third rest =>
      have last := (of_rank_lt ((List.pairwise_cons.mp increasing_rest).1 third (by simp))).2
        (same_second.trans (same third (by simp)).symm)
      simp [pair.2] at last

/-- Every diagnostic of a program is about one token, as its place and its wording say. The
diagnostics come in the order of their tokens. A token is at most once the one that another was
wanted for and at most once the one that nothing could be made of, in this order. -/
theorem exists_sightings_of_diagnostics (cursor : Cursor) : ∃ sightings : List Sighting,
    List.Forall₂ (fun sighting diagnostic =>
        Diagnostic.About (cursor.nth sighting.index) sighting.sight diagnostic)
      sightings (Parser.ofCursor cursor).program.2.diagnostics ∧
    sightings.Pairwise (fun earlier later => earlier.index ≤ later.index) ∧
    ∀ index, (sightings.filter (fun sighting => sighting.index = index)).Sublist
      [⟨index, .ahead⟩, ⟨index, .here⟩] := by
  let stream := TokenStream.ofCursor cursor
  have same : cursor.nth = stream.nth := funext cursor.nth_eq
  have walk := Attempt.compositional_walked.statements stream
  obtain ⟨sightings, about, increasing, -⟩ :=
    walk.exists_sightings (congrArg (Standing.mk · true) stream.drop_zero.symm)
  refine ⟨sightings, ?_, ?_, ?_⟩
  · rw [same]
    exact List.forall₂_map_right_iff.mpr about
  · exact increasing.imp fun before => (Sighting.of_rank_lt before).1
  · intro index
    refine Sighting.sublist_of_increasing (fun sighting member => ?_) (increasing.filter _)
    simpa using (List.mem_filter.mp member).2

end Scriptlet
