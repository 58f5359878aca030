import Scriptlet.Proofs.Parallel

/-!
# Confinement

Nothing but a block reads on over a semicolon: an expression never ends at one, and every function
that looks at the token after the current one stands on another token. So tokens after the last
semicolon make no difference to what is read before it, as long as no block is left open there.
`Attempt.Confined` says so of one attempt, and `parallel_confined` of two readings in parallel.
-/

namespace Scriptlet

variable {α β γ : Type}

/-- The event is that a block is done at the end of the text. -/
def ParseEvent.cutOff : ParseEvent α → Bool
  | .closed current => current.kind = .eof
  | _ => false

namespace TokenStream

/-- The tokens of a stream and then those of another one. -/
def append (stream more : TokenStream α) : TokenStream α :=
  ⟨stream.pending ++ more.pending, more.stop⟩

/-- The last of the tokens is a semicolon. -/
def Terminated (stream : TokenStream α) : Prop :=
  stream.pending.getLast?.map Token.kind = some .semicolon

/-- The last of the tokens is a semicolon, and `other` has the tokens `more` after it. -/
structure FollowedBy (more stream other : TokenStream α) : Prop where
  terminated : stream.Terminated
  same : other = stream.append more

namespace FollowedBy

variable {stream more other : TokenStream α}

theorem exists_pending (followed : FollowedBy more stream other) :
    ∃ first rest, stream.pending = first :: rest := by
  apply List.exists_cons_of_ne_nil
  intro empty
  have terminated := followed.terminated
  simp [Terminated, empty] at terminated

/-- The current token is the same whatever comes after the semicolon. -/
theorem current (followed : FollowedBy more stream other) : other.current = stream.current := by
  obtain ⟨first, rest, left⟩ := followed.exists_pending
  simp [followed.same, append, TokenStream.current, left]

/-- One token further the semicolon is still among those that are left, or nothing is. -/
theorem advance_or (followed : FollowedBy more stream other) :
    FollowedBy more stream.advance other.advance ∨
      stream.current.kind = .semicolon ∧ stream.ahead = [] ∧ other.advance = more := by
  obtain ⟨first, rest, left⟩ := followed.exists_pending
  obtain ⟨terminated, rfl⟩ := followed
  have ahead := ahead_of_pending left
  rw [Terminated, left] at terminated
  cases rest with
  | nil =>
    refine .inr ⟨?_, ahead, ?_⟩
    · rw [current_of_pending left]
      simpa using terminated
    · simp [append, advance, left]
  | cons second rest =>
    refine .inl ⟨?_, ?_⟩
    · rwa [Terminated, pending_advance, ahead, ← List.getLast?_cons_cons (a := first)]
    · simp [append, advance, left]

theorem advance (followed : FollowedBy more stream other)
    (before : stream.current.kind ≠ .semicolon) : FollowedBy more stream.advance other.advance :=
  followed.advance_or.resolve_right fun last => before last.1

/-- The token ahead is the same, unless the shorter stream stands on its last one. -/
theorem peek (followed : FollowedBy more stream other)
    (before : stream.current.kind ≠ .semicolon) : other.peek = stream.peek :=
  (followed.advance before).current

end FollowedBy

end TokenStream

open TokenStream (FollowedBy)

namespace Attempt

variable {δ : Type} {stream other more : TokenStream α} {extent : Extent} {g : β → γ}

/-- No block is cut off by the end of the text. -/
def Closed (attempt : Attempt stream β) : Prop := ∀ event ∈ attempt.log, event.cutOff = false

/-- The second attempt, which has the tokens `more` after those of the first one, comes to the same
and leaves them, and a semicolon before them. Where part of a statement is read, it ends on another
token. -/
structure Same (more : TokenStream α) (extent : Extent) (g : β → γ) (attempt : Attempt stream β)
    (wider : Attempt other γ) : Prop where
  value : wider.value = attempt.value.map g
  log : wider.log = attempt.log
  rest : FollowedBy more attempt.rest wider.rest
  last : extent = .part → attempt.value.isSome = true → attempt.rest.current.kind ≠ .semicolon

/-- The attempt is the same with the tokens `more` after the others, if no block is cut off. -/
def Confined (more : TokenStream α) (extent : Extent) (g : β → γ) (attempt : Attempt stream β)
    (wider : Attempt other γ) : Prop :=
  attempt.Closed → attempt.Same more extent g wider

theorem confined_give {value : β} (followed : FollowedBy more stream other)
    (last : extent = .part → stream.current.kind ≠ .semicolon) :
    (give value : Attempt stream β).Confined more extent g (give (g value) : Attempt other γ) :=
  fun _ => ⟨rfl, rfl, followed, fun isPart _ => last isPart⟩

theorem confined_refuse {problem : Problem α} (followed : FollowedBy more stream other) :
    (refuse problem : Attempt stream β).Confined more extent g
      (refuse problem : Attempt other γ) :=
  fun _ => ⟨rfl, rfl, followed, nofun⟩

theorem confined_noting {event : ParseEvent α} {attempt : Attempt stream β}
    {wider : Attempt other γ} (confined : attempt.Confined more extent g wider) :
    (attempt.noting event).Confined more extent g (wider.noting event) := by
  intro closed
  have same := confined fun event member => closed event (List.mem_cons_of_mem _ member)
  exact { same with log := congrArg (event :: ·) same.log }

theorem confined_moving {attempt : Attempt stream.advance β} {wider : Attempt other.advance γ}
    (same_peek : other.peek = stream.peek) (confined : attempt.Confined more extent g wider) :
    attempt.moving.Confined more extent g wider.moving := by
  intro closed
  have same := confined fun event member => closed event (List.mem_cons_of_mem _ member)
  exact { same with log := by simp [moving, same_peek, same.log] }

theorem confined_expecting {kind : Kind}
    {next : stream.peek.kind = kind → Attempt stream.advance β}
    {next' : other.peek.kind = kind → Attempt other.advance γ}
    (followed : FollowedBy more stream other) (before : stream.current.kind ≠ .semicolon)
    (confined : ∀ found found', (next found).Confined more extent g (next' found')) :
    (expecting kind next).Confined more extent g (expecting kind next') := by
  have same_peek := followed.peek before
  by_cases found : stream.peek.kind = kind
  · have found' : other.peek.kind = kind := by rw [same_peek, found]
    rw [expecting, expecting, dif_pos found, dif_pos found']
    exact confined_moving same_peek (confined found found')
  · rw [expecting, expecting, dif_neg found, dif_neg (same_peek ▸ found), same_peek]
    exact confined_refuse followed

theorem confined_map {ε : Type} {h : δ → ε} {k : β → δ} {k' : γ → ε} {attempt : Attempt stream β}
    {wider : Attempt other γ} (same_map : ∀ value, k' (g value) = h (k value))
    (confined : attempt.Confined more extent g wider) :
    (attempt.map k).Confined more extent h (wider.map k') := by
  intro closed
  have same := confined closed
  exact
    { same with
      value := by simp [map, same.value, Function.comp_def, same_map]
      last := fun isPart given => same.last isPart (by simpa [map] using given) }

/-- Where the first attempt ended, the streams still differ behind the semicolon only. -/
theorem confined_andThen {ε : Type} {extent' : Extent} {h : δ → ε} {attempt : Attempt stream β}
    {wider : Attempt other γ}
    {next : β → (rest : TokenStream α) → rest.size ≤ stream.size → Attempt rest δ}
    {next' : γ → (rest : TokenStream α) → rest.size ≤ other.size → Attempt rest ε}
    (confined : attempt.Confined more extent' g wider)
    (confined_next : ∀ value rest shorter rest' shorter', FollowedBy more rest rest' →
      (extent' = .part → rest.current.kind ≠ .semicolon) →
        (next value rest shorter).Confined more extent h (next' (g value) rest' shorter')) :
    (attempt.andThen next).Confined more extent h (wider.andThen next') := by
  intro closed
  cases given : attempt.value with
  | none =>
    rw [Closed, log_andThen_none given] at closed
    have same := confined closed
    have given' : wider.value = none := by rw [same.value, given]; rfl
    constructor
    · rw [value_andThen_none given, value_andThen_none given']; rfl
    · rw [log_andThen_none given, log_andThen_none given', same.log]
    · rw [rest_andThen_none given, rest_andThen_none given']
      exact same.rest
    · simp [value_andThen_none given]
  | some value =>
    rw [Closed, log_andThen_some given, List.forall_mem_append] at closed
    have same := confined closed.1
    have given' : wider.value = some (g value) := by rw [same.value, given]; rfl
    have following := confined_next value attempt.rest attempt.size_le wider.rest wider.size_le
      same.rest (fun isPart => same.last isPart (by rw [given]; rfl)) closed.2
    constructor
    · rw [value_andThen_some given, value_andThen_some given', following.value]
    · rw [log_andThen_some given, log_andThen_some given', same.log, following.log]
    · rw [rest_andThen_some given, rest_andThen_some given']
      exact following.rest
    · rw [value_andThen_some given, rest_andThen_some given]
      exact following.last

/-- A statement that is done may end on any token, since it may have failed anywhere. -/
theorem confined_settle {attempt : Attempt stream β} {wider : Attempt other γ}
    (confined : attempt.Confined more extent g wider) :
    attempt.settle.Confined more .statement (Option.map g) wider.settle := by
  intro closed
  have same := confined fun event member => closed event (List.mem_append_left _ member)
  exact
    { same with
      value := by simp [settle, same.value]
      log := by simp [settle, same.value, same.log, same.rest.current]
      last := nofun }

/-- A statement may end with the very last semicolon, and then both streams stand on it. -/
theorem confined_ending {g : Statement (Token α) → Statement (Token α)} (tree : Statement (Token α))
    (followed : FollowedBy more stream other) (before : stream.current.kind ≠ .semicolon) :
    (Parse.ending tree : Attempt stream _).Confined more .statement g
      (Parse.ending (g tree) : Attempt other _) := by
  have same_peek := followed.peek before
  rw [Parse.ending, Parse.ending, same_peek]
  split
  · exact confined_moving same_peek (confined_give (followed.advance before) nofun)
  · exact confined_give followed nofun

end Attempt

namespace Parse

open Attempt

/-- With the tokens `more` after a semicolon at its end an attempt is confined to what is before. -/
def confined (more : TokenStream α) : Pairing α α := fun extent _ _ g stream other attempt wider =>
  FollowedBy more stream other → attempt.Confined more extent g wider

/-- A block whose statements are confined goes on behind a semicolon, but for the last one, where it
is cut off. -/
theorem confined_more (more : TokenStream α) :
    (confined more).More id blockStatements blockStatements := by
  intro stream other attempt wider statement_confined statements_confined followed
  refine confined_andThen (confined_settle (statement_confined followed)) ?_
  intro tree rest shorter rest' _ followed_rest _
  rcases followed_rest.advance_or with next | ⟨-, ended, -⟩
  · refine confined_moving next.current
      (confined_map (fun trees => ?_) (statements_confined rest rest' shorter next))
    cases tree <;> rfl
  · -- Nothing is left after the semicolon, and the block is cut off.
    intro closed
    have atEnd : rest.advance.current.kind = .eof := by
      rw [TokenStream.current_of_pending_nil ended]
      rfl
    rw [blockStatements_done (.inr atEnd)] at closed
    have cut := closed (.closed rest.advance.current) (by simp [moving, map, noting])
    simp [ParseEvent.cutOff, atEnd] at cut

/-- Nothing but a block reads on over a semicolon. -/
theorem parallel_confined (more : TokenStream α) :
    Parallel id (fun stream => stream.current.kind ≠ .semicolon) (confined more) where
  firm_of := id
  current paired followed := paired followed.current followed
  step before paired followed := paired (followed.peek before) followed
  stay idle before here _ paired followed := by
    refine paired ?_ followed
    rwa [followed.peek before]
  give _ before followed := confined_give followed fun _ => before
  refuse problem followed := by
    rw [problem.mapMark_id]
    exact confined_refuse followed
  noting {_ _ _ _ _ _ _ _ event} _ paired followed := by
    rw [event.mapMark_id]
    exact confined_noting (paired followed)
  moving before paired followed :=
    confined_moving (followed.peek before) (paired (followed.advance before))
  expecting before paired followed := confined_expecting followed before fun found found' =>
    paired found found' (followed.advance before)
  map same_map paired followed := confined_map same_map (paired followed)
  andThen paired paired_next followed := confined_andThen (paired followed)
    fun value rest shorter rest' shorter' followed_rest before =>
      paired_next value rest shorter rest' shorter' (before rfl) followed_rest
  ending tree before followed := confined_ending tree followed before
  more := confined_more more

/-- A statement that ends before the last semicolon, or at it, is the same whatever comes after. -/
theorem confined_statement {stream other more : TokenStream α}
    (followed : FollowedBy more stream other) :
    (statement stream).Confined more .statement id (statement other) := by
  have paired := (parallel_confined more).statement stream other followed
  have unchanged : Statement.mapTokens (Token.mapMark id) = (id : Statement (Token α) → _) :=
    funext Statement.mapTokens_id
  rwa [unchanged] at paired

end Parse

end Scriptlet
