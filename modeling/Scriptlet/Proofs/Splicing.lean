import Scriptlet.Proofs.Marks
import Scriptlet.Proofs.Walks

/-!
# Splicing

A token stream with one semicolon more, behind the last token of a statement that is kept. Up to
that token both streams are read alike, since the parser looks only one token ahead. There it sees
the semicolon instead of what came next; but as the statement ends there, nothing that could go on
did so, and nothing goes on at a semicolon either. The statement takes the semicolon in, and what
comes after it is the same for both.

Where the first reading goes on over the place of the semicolon, or has a problem there, no
statement is kept there, and the two readings may differ in any way. `Attempt.Spliced` says which of
these it is, and `parallel_spliced` that it is one of them for two readings in parallel.
-/

namespace Scriptlet

variable {α β γ : Type}

/-! ## Where a statement is kept -/

/-- In the log a statement is kept after so many steps. -/
inductive KeptAt : Nat → List (ParseEvent α) → Prop where
  | here (last : Token α) (log : List (ParseEvent α)) : KeptAt 0 (.settled true last :: log)
  | moved {index : Nat} {log : List (ParseEvent α)} (current : Token α) (kept : KeptAt index log) :
      KeptAt (index + 1) (.moved current :: log)
  | still {index : Nat} {log : List (ParseEvent α)} {event : ParseEvent α}
      (still : event.isStep = false) (kept : KeptAt index log) : KeptAt index (event :: log)

section KeptAt

variable {index : Nat} {log more : List (ParseEvent α)}

theorem not_keptAt_nil : ¬ KeptAt index ([] : List (ParseEvent α)) := nofun

theorem keptAt_moved {current : Token α} : KeptAt index (.moved current :: log) ↔
    ∃ ahead, ahead + 1 = index ∧ KeptAt ahead log := by
  constructor
  · intro kept
    cases kept with
    | moved _ kept => exact ⟨_, rfl, kept⟩
    | still still _ => cases still
  · rintro ⟨ahead, rfl, kept⟩
    exact .moved current kept

theorem keptAt_settled {kept : Bool} {last : Token α} : KeptAt index (.settled kept last :: log) ↔
    (kept = true ∧ index = 0) ∨ KeptAt index log := by
  constructor
  · intro found
    cases found with
    | here _ _ => exact .inl ⟨rfl, rfl⟩
    | still _ found => exact .inr found
  · rintro (⟨rfl, rfl⟩ | found)
    · exact .here last log
    · exact .still rfl found

/-- In two logs, one after the other, a statement is kept in one of them. -/
theorem keptAt_append : KeptAt index (log ++ more) ↔
    KeptAt index log ∨ ∃ ahead, steps log + ahead = index ∧ KeptAt ahead more := by
  constructor
  · intro kept
    induction log generalizing index with
    | nil => exact .inr ⟨index, Nat.zero_add index, kept⟩
    | cons event log ih =>
      cases kept with
      | here last _ => exact .inl (.here last log)
      | moved current kept =>
        rcases ih kept with first | ⟨ahead, rfl, second⟩
        · exact .inl (.moved current first)
        · exact .inr ⟨ahead, by rw [steps_moved]; omega, second⟩
      | still still kept =>
        rcases ih kept with first | ⟨ahead, rfl, second⟩
        · exact .inl (.still still first)
        · exact .inr ⟨ahead, by rw [steps_of_isStep_false still], second⟩
  · rintro (kept | ⟨ahead, rfl, kept⟩)
    · induction kept with
      | here last log => exact .here last _
      | moved current _ ih => exact .moved current ih
      | still still _ ih => exact .still still ih
    · induction log with
      | nil => rwa [List.nil_append, steps, List.countP_nil, Nat.zero_add]
      | cons event log ih =>
        cases step : event.isStep with
        | false =>
          rw [steps_of_isStep_false step]
          exact .still step ih
        | true =>
          cases event with
          | moved current =>
            rw [steps_moved, Nat.add_right_comm]
            exact .moved current ih
          | _ => cases step

end KeptAt

/-! ## The two streams -/

namespace TokenStream

/-- `other` is `stream` with a semicolon more, behind the token with the number `index`, which is
none. -/
inductive Parted : Nat → TokenStream α → TokenStream α → Prop where
  | here {last mark : Token α} (later : List (Token α)) (stop : α)
      (unended : last.kind ≠ .semicolon) (isMark : mark.kind = .semicolon) :
      Parted 0 ⟨last :: later, stop⟩ ⟨last :: mark :: later, stop⟩
  | before {index : Nat} {stream other : TokenStream α} (token : Token α)
      (parted : Parted index stream other) : Parted (index + 1)
        ⟨token :: stream.pending, stream.stop⟩ ⟨token :: other.pending, other.stop⟩

/-- The streams where a statement has ended that took in the semicolon. -/
def Level (stream other : TokenStream α) : Prop := other.advance = stream.advance

namespace Parted

variable {index : Nat} {stream other : TokenStream α}

theorem current (parted : Parted index stream other) : other.current = stream.current := by
  cases parted <;> rfl

/-- The next token is the same, unless it is the semicolon. -/
theorem next_or (parted : Parted index stream other) :
    (∃ ahead, index = ahead + 1 ∧ other.peek = stream.peek ∧
      Parted ahead stream.advance other.advance) ∨
    (index = 0 ∧ stream.current.kind ≠ .semicolon ∧ other.peek.kind = .semicolon ∧
      other.advance.advance = stream.advance) := by
  cases parted with
  | here later stop unended isMark => exact .inr ⟨rfl, unended, isMark, rfl⟩
  | before token parted => exact .inl ⟨_, rfl, parted.current, parted⟩

/-- What holds of the next kind, and of a semicolon, holds of the next kind with a semicolon more. -/
theorem peek_of {p : Kind → Prop} (parted : Parted index stream other) (holds : p stream.peek.kind)
    (mark : p .semicolon) : p other.peek.kind := by
  rcases parted.next_or with ⟨_, -, same_peek, -⟩ | ⟨-, -, isMark, -⟩
  · rwa [same_peek]
  · rwa [isMark]

end Parted

end TokenStream

open TokenStream (Parted Level)

namespace Attempt

variable {δ ε : Type} {place : TokenStream α → TokenStream α → Prop} {index : Nat}
  {stream other : TokenStream α} {g : β → γ} {h : δ → ε}

/-- Both attempts come to the same and find the same problems. -/
structure Agrees (g : β → γ) (attempt : Attempt stream β) (wider : Attempt other γ) : Prop where
  value : wider.value = attempt.value.map g
  problems : wider.problems = attempt.problems

/-- An attempt on the same stream agrees. -/
theorem Image.agrees {attempt : Attempt stream β} {wider : Attempt other γ}
    (image : attempt.Image id g wider) : attempt.Agrees g wider :=
  ⟨image.value, by
    rw [image.problems, List.map_congr_left fun problem _ => problem.mapMark_id, List.map_id']⟩

theorem Image.rest_eq {attempt : Attempt stream β} {wider : Attempt other γ}
    (image : attempt.Image id g wider) : wider.rest = attempt.rest := by
  rw [image.rest, TokenStream.mapMarks_id]

/-- What becomes of an attempt if there is a semicolon more behind the token with the number
`index`. `place` says what is left where the attempt ends at that token. -/
inductive Spliced (place : TokenStream α → TokenStream α → Prop) (index : Nat) (g : β → γ)
    (attempt : Attempt stream β) (wider : Attempt other γ) : Prop where
  /-- The semicolon was read, and made no difference. -/
  | passed (agrees : attempt.Agrees g wider) (rest : wider.rest = attempt.rest)
  /-- The place of the semicolon is still ahead. -/
  | before (ahead : Nat) (distance : steps attempt.log + (ahead + 1) = index)
      (notYet : ¬ KeptAt index attempt.log) (agrees : attempt.Agrees g wider)
      (parted : Parted (ahead + 1) attempt.rest wider.rest)
  /-- The attempt succeeds there. -/
  | arrived (distance : steps attempt.log = index) (notYet : ¬ KeptAt index attempt.log)
      (given : attempt.value.isSome = true) (agrees : attempt.Agrees g wider)
      (placed : place attempt.rest wider.rest)
  /-- No statement is kept there, nor will there be one. -/
  | lost (never : ¬ KeptAt index attempt.log) (reached : index ≤ steps attempt.log)
      (beyond : attempt.value.isSome = true → index < steps attempt.log)

/-- An attempt is part of another that begins `shift` tokens earlier and goes on to its end. The
semicolon has no other consequences for the whole than for the part. -/
theorem Spliced.lift {begun begun' : TokenStream α} {ahead shift : Nat} {attempt : Attempt begun β}
    {wider : Attempt begun' γ} {whole : Attempt stream δ} {whole' : Attempt other ε}
    (spliced : attempt.Spliced place ahead g wider) (apart : shift + ahead = index)
    (steps_eq : steps whole.log = shift + steps attempt.log)
    (not_kept : ¬ KeptAt ahead attempt.log → ¬ KeptAt index whole.log)
    (isSome_eq : whole.value.isSome = attempt.value.isSome)
    (agrees_of : attempt.Agrees g wider → whole.Agrees h whole')
    (rest_eq : whole.rest = attempt.rest) (rest_eq' : whole'.rest = wider.rest) :
    whole.Spliced place index h whole' := by
  cases spliced with
  | passed agrees rest => exact .passed (agrees_of agrees) (by rw [rest_eq, rest_eq', rest])
  | before further distance notYet agrees parted =>
    exact .before further (by omega) (not_kept notYet) (agrees_of agrees)
      (by rwa [rest_eq, rest_eq'])
  | arrived distance notYet given agrees placed =>
    exact .arrived (by omega) (not_kept notYet) (by rwa [isSome_eq]) (agrees_of agrees)
      (by rwa [rest_eq, rest_eq'])
  | lost never reached beyond =>
    refine .lost (not_kept never) (by omega) fun given => ?_
    have := beyond (isSome_eq ▸ given)
    omega

theorem spliced_give (value : β) (parted : Parted index stream other) :
    (give value : Attempt stream β).Spliced (Parted 0) index g
      (give (g value) : Attempt other γ) := by
  cases index with
  | zero => exact .arrived rfl not_keptAt_nil rfl ⟨rfl, rfl⟩ parted
  | succ ahead => exact .before ahead (Nat.zero_add _) not_keptAt_nil ⟨rfl, rfl⟩ parted

theorem not_keptAt_refuse (problem : Problem α) :
    ¬ KeptAt index (refuse problem : Attempt stream β).log := by
  intro kept
  cases kept with
  | still _ kept => cases kept

/-- A problem at the place of the semicolon keeps a statement from ending there. -/
theorem lost_refuse (problem : Problem α) (wider : Attempt other γ) :
    (refuse problem : Attempt stream β).Spliced place 0 g wider :=
  .lost (not_keptAt_refuse problem) (Nat.zero_le _) nofun

theorem spliced_refuse {problem : Problem α} (parted : Parted index stream other) :
    (refuse problem : Attempt stream β).Spliced place index g
      (refuse problem : Attempt other γ) := by
  cases index with
  | zero => exact lost_refuse problem _
  | succ ahead =>
    exact .before ahead (Nat.zero_add _) (not_keptAt_refuse problem) ⟨rfl, rfl⟩ parted

theorem spliced_noting {event : ParseEvent α} {attempt : Attempt stream β} {wider : Attempt other γ}
    (quiet : event.quiet = true) (spliced : attempt.Spliced place index g wider) :
    (attempt.noting event).Spliced place index g (wider.noting event) := by
  have still : event.isStep = false := by
    cases event <;> simp_all [ParseEvent.quiet, ParseEvent.isStep]
  have steps_eq : steps (attempt.noting event).log = steps attempt.log :=
    steps_of_isStep_false still attempt.log
  have not_kept (never : ¬ KeptAt index attempt.log) :
      ¬ KeptAt index (attempt.noting event).log := by
    intro kept
    cases kept with
    | here last _ => cases quiet
    | moved _ _ => cases quiet
    | still _ kept => exact never kept
  have agrees_of (agrees : attempt.Agrees g wider) :
      (attempt.noting event).Agrees g (wider.noting event) :=
    ⟨agrees.value, by rw [problems_noting, problems_noting, agrees.problems]⟩
  exact spliced.lift (Nat.zero_add index) (by rw [steps_eq, Nat.zero_add]) not_kept rfl agrees_of
    rfl rfl

/-- An attempt that takes a step from the place of the semicolon keeps no statement there. -/
theorem lost_moving {attempt : Attempt stream.advance β} (wider : Attempt other γ) :
    attempt.moving.Spliced place 0 g wider := by
  have beyond : 0 < steps attempt.moving.log := by
    rw [moving, steps_moved]
    omega
  refine .lost (fun kept => ?_) (Nat.zero_le _) fun _ => beyond
  obtain ⟨ahead, apart, -⟩ := keptAt_moved.mp kept
  exact absurd apart (Nat.succ_ne_zero ahead)

/-- A step leads one token nearer to the semicolon. -/
theorem spliced_moving {attempt : Attempt stream.advance β} {wider : Attempt other.advance γ}
    (parted : Parted index stream other)
    (spliced : ∀ ahead, Parted ahead stream.advance other.advance →
      attempt.Spliced place ahead g wider) :
    attempt.moving.Spliced place index g wider.moving := by
  rcases parted.next_or with ⟨index, rfl, -, next⟩ | ⟨rfl, -, -, -⟩
  · have steps_eq : steps attempt.moving.log = steps attempt.log + 1 := steps_moved _ _
    have not_kept (never : ¬ KeptAt index attempt.log) :
        ¬ KeptAt (index + 1) attempt.moving.log := by
      intro kept
      obtain ⟨_, same, kept⟩ := keptAt_moved.mp kept
      exact never (Nat.succ.inj same ▸ kept)
    have agrees_of (agrees : attempt.Agrees g wider) : attempt.moving.Agrees g wider.moving :=
      ⟨agrees.value, agrees.problems⟩
    exact (spliced index next).lift (Nat.add_comm 1 index) (by rw [steps_eq, Nat.add_comm]) not_kept
      rfl agrees_of rfl rfl
  · exact lost_moving _

/-- As `spliced_moving`, where the step is taken because of what comes next: that is another token
at the place of the semicolon, but there a step leads past the place. -/
theorem spliced_moving_of_peek {attempt : Attempt stream.advance β} {wider : Attempt other γ}
    (parted : Parted index stream other)
    (spliced : other.peek = stream.peek → attempt.moving.Spliced place index g wider) :
    attempt.moving.Spliced place index g wider := by
  rcases parted.next_or with ⟨_, -, same_peek, -⟩ | ⟨rfl, -, -, -⟩
  · exact spliced same_peek
  · exact lost_moving wider

/-- Where the semicolon stands, another token is wanted only in vain. -/
theorem spliced_expecting {kind : Kind}
    {next : stream.peek.kind = kind → Attempt stream.advance β}
    {next' : other.peek.kind = kind → Attempt other.advance γ} (parted : Parted index stream other)
    (spliced : ∀ found found' ahead, Parted ahead stream.advance other.advance →
      (next found).Spliced place ahead g (next' found')) :
    (expecting kind next).Spliced place index g (expecting kind next') := by
  by_cases found : stream.peek.kind = kind
  · rw [expecting, dif_pos found]
    refine spliced_moving_of_peek parted fun same_peek => ?_
    have found' : other.peek.kind = kind := by rw [same_peek, found]
    rw [expecting, dif_pos found']
    exact spliced_moving parted (spliced found found')
  · rcases parted.next_or with ⟨_, -, same_peek, -⟩ | ⟨rfl, -, -, -⟩
    · rw [expecting, expecting, dif_neg found, dif_neg (same_peek ▸ found), same_peek]
      exact spliced_refuse parted
    · rw [expecting, dif_neg found]
      exact lost_refuse _ _

theorem spliced_map {k : β → δ} {k' : γ → ε} {attempt : Attempt stream β} {wider : Attempt other γ}
    (same_map : ∀ value, k' (g value) = h (k value))
    (spliced : attempt.Spliced place index g wider) :
    (attempt.map k).Spliced place index h (wider.map k') := by
  have agrees_of (agrees : attempt.Agrees g wider) : (attempt.map k).Agrees h (wider.map k') :=
    ⟨by simp [map, agrees.value, Function.comp_def, same_map], agrees.problems⟩
  have isSome_eq : (attempt.map k).value.isSome = attempt.value.isSome := Option.isSome_map
  exact spliced.lift (Nat.zero_add index) (Nat.zero_add _).symm id isSome_eq agrees_of rfl rfl

section andThen

variable {attempt : Attempt stream β} {wider : Attempt other γ}
  {next : β → (rest : TokenStream α) → rest.size ≤ stream.size → Attempt rest δ}
  {next' : γ → (rest : TokenStream α) → rest.size ≤ other.size → Attempt rest ε}

/-- An attempt that fails is over, whatever was to come after it. -/
theorem spliced_andThen_none (failed : attempt.value = none)
    (spliced : attempt.Spliced (Parted 0) index g wider) :
    (attempt.andThen next).Spliced place index h (wider.andThen next') := by
  have log_eq : (attempt.andThen next).log = attempt.log := log_andThen_none failed
  have rest_eq : (attempt.andThen next).rest = attempt.rest := rest_andThen_none failed
  have failed_of (agrees : attempt.Agrees g wider) : wider.value = none := by
    rw [agrees.value, failed]
    rfl
  have rest_of (agrees : attempt.Agrees g wider) : (wider.andThen next').rest = wider.rest :=
    rest_andThen_none (failed_of agrees)
  have agrees_of (agrees : attempt.Agrees g wider) :
      (attempt.andThen next).Agrees h (wider.andThen next') := by
    have failed' := failed_of agrees
    refine ⟨?_, ?_⟩
    · rw [value_andThen_none failed, value_andThen_none failed']
      rfl
    · rw [problems_andThen_none failed, problems_andThen_none failed', agrees.problems]
  cases spliced with
  | passed agrees rest => exact .passed (agrees_of agrees) (by rw [rest_of agrees, rest_eq, rest])
  | before ahead distance notYet agrees parted =>
    exact .before ahead (by rw [log_eq, distance]) (by rwa [log_eq]) (agrees_of agrees)
      (by rwa [rest_of agrees, rest_eq])
  | arrived _ _ given _ _ => simp [failed] at given
  | lost never reached _ =>
    exact .lost (by rwa [log_eq]) (by rwa [log_eq]) (by simp [value_andThen_none failed])

section some

variable {value : β} (given : attempt.value = some value) (agrees : attempt.Agrees g wider)

include given agrees

/-- Attempts that agree go on alike if what comes after them agrees. -/
theorem agrees_andThen (following : (next value attempt.rest attempt.size_le).Agrees h
    (next' (g value) wider.rest wider.size_le)) :
    (attempt.andThen next).Agrees h (wider.andThen next') := by
  have given' : wider.value = some (g value) := by rw [agrees.value, given]; rfl
  constructor
  · rw [value_andThen_some given, value_andThen_some given', following.value]
  · rw [problems_andThen_some given, problems_andThen_some given', agrees.problems,
      following.problems]

theorem rest_andThen_of_agrees : (wider.andThen next').rest =
    (next' (g value) wider.rest wider.size_le).rest :=
  rest_andThen_some (by rw [agrees.value, given]; rfl)

/-- What comes after an attempt that succeeds before the semicolon or at its place. -/
theorem spliced_andThen_some {ahead : Nat} (distance : steps attempt.log + ahead = index)
    (notYet : ¬ KeptAt index attempt.log)
    (spliced : (next value attempt.rest attempt.size_le).Spliced place ahead h
      (next' (g value) wider.rest wider.size_le)) :
    (attempt.andThen next).Spliced place index h (wider.andThen next') := by
  have log_eq : (attempt.andThen next).log = _ := log_andThen_some given
  have steps_eq : steps (attempt.andThen next).log =
      steps attempt.log + steps (next value attempt.rest attempt.size_le).log := by
    rw [log_eq, steps_append]
  have not_kept (never : ¬ KeptAt ahead (next value attempt.rest attempt.size_le).log) :
      ¬ KeptAt index (attempt.andThen next).log := by
    rw [log_eq, keptAt_append]
    rintro (kept | ⟨further, apart, kept⟩)
    · exact notYet kept
    · obtain rfl : further = ahead := by omega
      exact never kept
  exact spliced.lift distance steps_eq not_kept (by rw [value_andThen_some given])
    (agrees_andThen given agrees) (rest_andThen_some given) (rest_andThen_of_agrees given agrees)

end some

/-- Reading goes on in the same way where the attempt ended. Behind the semicolon that is because the
same is left. -/
theorem spliced_andThen (spliced : attempt.Spliced (Parted 0) index g wider)
    (image_next : ∀ value rest shorter rest' shorter', rest' = rest.mapMarks id →
      (next value rest shorter).Image id h (next' (g value) rest' shorter'))
    (spliced_next : ∀ value rest shorter rest' shorter' ahead, Parted ahead rest rest' →
      (next value rest shorter).Spliced place ahead h (next' (g value) rest' shorter')) :
    (attempt.andThen next).Spliced place index h (wider.andThen next') := by
  cases given : attempt.value with
  | none => exact spliced_andThen_none given spliced
  | some tree =>
    cases spliced with
    | passed agrees rest =>
      have image := image_next tree attempt.rest attempt.size_le wider.rest wider.size_le
        (by rw [rest, TokenStream.mapMarks_id])
      refine .passed (agrees_andThen given agrees image.agrees) ?_
      rw [rest_andThen_some given, rest_andThen_of_agrees given agrees, image.rest_eq]
    | before ahead distance notYet agrees parted =>
      exact spliced_andThen_some given agrees distance notYet (spliced_next tree _ _ _ _ _ parted)
    | arrived distance notYet _ agrees placed =>
      exact spliced_andThen_some given agrees distance notYet (spliced_next tree _ _ _ _ 0 placed)
    | lost never reached beyond =>
      have log_eq : (attempt.andThen next).log = _ := log_andThen_some given
      have further := beyond (by rw [given]; rfl)
      have steps_eq := congrArg steps log_eq
      rw [steps_append] at steps_eq
      refine .lost ?_ (by omega) fun _ => by omega
      rw [log_eq, keptAt_append]
      rintro (kept | ⟨ahead, apart, -⟩)
      · exact never kept
      · omega

end andThen

section more

variable {attempt : Attempt stream (Statement (Token α))}
  {wider : Attempt other (Statement (Token α))}
  {next : (rest : TokenStream α) → Attempt rest (List (Statement (Token α)))}

theorem value_more : (attempt.more next).value =
    (next attempt.rest.advance).value.map (attempt.value.toList ++ ·) :=
  value_andThen_some rfl

theorem problems_more : (attempt.more next).problems =
    attempt.problems ++ (next attempt.rest.advance).problems := by
  rw [more, problems_andThen_some rfl, problems_settle]
  rfl

theorem rest_more : (attempt.more next).rest = (next attempt.rest.advance).rest :=
  rest_andThen_some rfl

theorem steps_more : steps (attempt.more next).log =
    steps attempt.log + (steps (next attempt.rest.advance).log + 1) := by
  rw [more, log_more, steps_append, settle, steps_append, steps_moved]
  rfl

/-- The statement that is kept is inside the first one, or the first one itself, or among the
others. -/
theorem keptAt_more : KeptAt index (attempt.more next).log ↔
    KeptAt index attempt.log ∨ (attempt.value.isSome = true ∧ steps attempt.log = index) ∨
      ∃ ahead, steps attempt.log + (ahead + 1) = index ∧
        KeptAt ahead (next attempt.rest.advance).log := by
  have log_eq : (attempt.more next).log = attempt.log ++
      .settled attempt.value.isSome attempt.rest.current :: .moved attempt.rest.peek ::
        (next attempt.rest.advance).log := by
    rw [more, log_more, settle, List.append_assoc]
    rfl
  rw [log_eq, keptAt_append]
  simp only [keptAt_settled, keptAt_moved]
  grind

variable {f : Token α → Token α}

/-- The statements after two that agree decide whether the lists do. -/
theorem agrees_more (agrees : attempt.Agrees (Statement.mapTokens f) wider)
    (following : (next attempt.rest.advance).Agrees (mapStatements f) (next wider.rest.advance)) :
    (attempt.more next).Agrees (mapStatements f) (wider.more next) := by
  constructor
  · rw [value_more, value_more, agrees.value, following.value, Option.map_map, Option.map_map]
    congr 1
    funext trees
    cases attempt.value <;> rfl
  · rw [problems_more, problems_more, agrees.problems, following.problems]

/-- Behind a statement that took in the semicolon both readings go on alike. -/
theorem passed_more (agrees : attempt.Agrees (Statement.mapTokens f) wider)
    (level : Level attempt.rest wider.rest)
    (image_next : ∀ rest rest' : TokenStream α, rest' = rest.mapMarks id →
      (next rest).Image id (mapStatements f) (next rest')) :
    (attempt.more next).Spliced place index (mapStatements f) (wider.more next) := by
  have image := image_next attempt.rest.advance wider.rest.advance
    (by rw [level, TokenStream.mapMarks_id])
  exact .passed (agrees_more agrees image.agrees) (by rw [rest_more, rest_more, image.rest_eq])

theorem spliced_more (spliced : attempt.Spliced Level index (Statement.mapTokens f) wider)
    (image_next : ∀ rest rest' : TokenStream α, rest' = rest.mapMarks id →
      (next rest).Image id (mapStatements f) (next rest'))
    (spliced_next : ∀ (rest rest' : TokenStream α) (ahead : Nat), rest.size ≤ stream.size →
      Parted ahead rest.advance rest'.advance →
        (next rest.advance).Spliced place ahead (mapStatements f) (next rest'.advance)) :
    (attempt.more next).Spliced place index (mapStatements f) (wider.more next) := by
  have steps_eq : steps (attempt.more next).log = _ := steps_more
  cases spliced with
  | passed agrees rest =>
    exact passed_more agrees (congrArg TokenStream.advance rest) image_next
  | arrived _ _ _ agrees level => exact passed_more agrees level image_next
  | before ahead distance notYet agrees parted =>
    have not_kept (never : ¬ KeptAt ahead (next attempt.rest.advance).log) :
        ¬ KeptAt index (attempt.more next).log := by
      rw [keptAt_more]
      rintro (kept | ⟨-, here⟩ | ⟨further, apart, kept⟩)
      · exact notYet kept
      · omega
      · obtain rfl : further = ahead := by omega
        exact never kept
    rcases parted.next_or with ⟨_, same, -, onward⟩ | ⟨atPlace, -, -, -⟩
    · obtain rfl := Nat.succ.inj same
      have following := spliced_next attempt.rest wider.rest ahead attempt.size_le onward
      have apart : (steps attempt.log + 1) + ahead = index := by omega
      exact following.lift apart (by omega) not_kept (by rw [value_more, Option.isSome_map])
        (agrees_more agrees) rest_more rest_more
    · exact absurd atPlace (Nat.succ_ne_zero ahead)
  | lost never reached beyond =>
    refine .lost ?_ (by omega) fun _ => by omega
    rw [keptAt_more]
    rintro (kept | ⟨given, here⟩ | ⟨ahead, apart, -⟩)
    · exact never kept
    · have := beyond given
      omega
    · omega

end more

/-- A statement takes in the semicolon if it ends where that stands, and only then. -/
theorem spliced_ending {g : Statement (Token α) → Statement (Token α)} (tree : Statement (Token α))
    (parted : Parted index stream other) :
    (Parse.ending tree : Attempt stream _).Spliced Level index g
      (Parse.ending (g tree) : Attempt other _) := by
  rw [Parse.ending, Parse.ending]
  rcases parted.next_or with ⟨ahead, rfl, same_peek, next⟩ | ⟨rfl, -, isMark, level⟩
  · rw [same_peek]
    by_cases ends : stream.peek.kind = .semicolon
    · rw [if_pos ends, if_pos ends]
      refine spliced_moving parted fun ahead next => ?_
      cases ahead with
      | zero =>
        rcases next.next_or with ⟨_, same, -, -⟩ | ⟨-, unended, -, -⟩
        · exact absurd same (Nat.succ_ne_zero _).symm
        · exact absurd ends unended
      | succ ahead => exact .before ahead (Nat.zero_add _) not_keptAt_nil ⟨rfl, rfl⟩ next
    · rw [if_neg ends, if_neg ends]
      exact .before ahead (Nat.zero_add _) not_keptAt_nil ⟨rfl, rfl⟩ parted
  · rw [if_pos isMark]
    by_cases ends : stream.peek.kind = .semicolon
    · rw [if_pos ends]
      exact lost_moving _
    · rw [if_neg ends]
      exact .arrived rfl not_keptAt_nil rfl ⟨rfl, rfl⟩ level

end Attempt

/-- What is left where a reading ends at the token before the semicolon. -/
def Extent.place : Extent → TokenStream α → TokenStream α → Prop
  | .part => Parted 0
  | .statement => Level

namespace Parse

open Attempt

/-- An attempt bears a semicolon more, wherever that stands, and comes to the same without one. -/
def spliced : Pairing α α := fun extent _ _ g stream other attempt wider =>
  marked id extent g attempt wider ∧
    ∀ index, Parted index stream other → attempt.Spliced extent.place index g wider

/-- Lists of statements bear a semicolon more if a statement does and those after it. -/
theorem more_spliced {next : (rest : TokenStream α) → Attempt rest (List (Statement (Token α)))}
    (image_next : ∀ rest rest' : TokenStream α, rest' = rest.mapMarks id →
      (next rest).Image id (mapStatements (Token.mapMark id)) (next rest')) :
    (spliced : Pairing α α).More id next next := by
  intro stream other attempt wider paired paired_next
  refine ⟨fun same => image_more (paired.1 same) fun rest rest' shorter =>
    (paired_next rest rest' shorter).1, fun index parted => ?_⟩
  exact spliced_more (paired.2 index parted) image_next fun rest rest' ahead shorter onward =>
    (paired_next rest rest' shorter).2 ahead onward

/-- The parser looks only one token ahead, and nothing goes on at a semicolon. -/
theorem parallel_spliced : Parallel (id : α → α) (fun _ => True) spliced where
  firm_of _ := trivial
  current paired := ⟨fun same => (parallel_marked id).current (fun h => (paired h).1) same,
    fun index parted => (paired parted.current).2 index parted⟩
  step _ paired := ⟨(parallel_marked id).step trivial fun h => (paired h).1,
    fun index parted => spliced_moving_of_peek parted fun same_peek =>
      (paired same_peek).2 index parted⟩
  stay idle _ here mark paired := ⟨(parallel_marked id).stay idle trivial here mark
    fun h => (paired h).1, fun index parted => (paired (parted.peek_of here mark)).2 index parted⟩
  give value _ := ⟨(parallel_marked id).give value trivial, fun _ => spliced_give value⟩
  refuse problem := ⟨(parallel_marked id).refuse problem, fun _ parted => by
    rw [problem.mapMark_id]
    exact spliced_refuse parted⟩
  noting {_ _ _ _ _ _ _ _ event} quiet paired :=
    ⟨(parallel_marked id).noting quiet paired.1, fun index parted => by
      rw [event.mapMark_id]
      exact spliced_noting quiet (paired.2 index parted)⟩
  moving _ paired := ⟨(parallel_marked id).moving trivial paired.1,
    fun _ parted => spliced_moving parted paired.2⟩
  expecting _ paired := ⟨(parallel_marked id).expecting trivial fun found found' =>
    (paired found found').1, fun _ parted => spliced_expecting parted fun found found' =>
      (paired found found').2⟩
  map same_map paired := ⟨(parallel_marked id).map same_map paired.1,
    fun index parted => spliced_map same_map (paired.2 index parted)⟩
  andThen paired paired_next := by
    refine ⟨(parallel_marked id).andThen paired.1 fun value rest shorter rest' shorter' _ =>
      (paired_next value rest shorter rest' shorter' trivial).1, fun index parted => ?_⟩
    exact spliced_andThen (paired.2 index parted)
      (fun value rest shorter rest' shorter' =>
        (paired_next value rest shorter rest' shorter' trivial).1)
      fun value rest shorter rest' shorter' =>
        (paired_next value rest shorter rest' shorter' trivial).2
  ending tree _ := ⟨(parallel_marked id).ending tree trivial, fun _ => spliced_ending tree⟩
  more := more_spliced fun rest rest' same =>
    (parallel_marked id).blockStatements rest rest' same

variable {index : Nat} {stream other : TokenStream α}

/-- A semicolon behind a statement that is kept changes no statement of a text. -/
theorem spliced_statements (parted : Parted index stream other) :
    (statements stream).Spliced (Parted 0) index (mapStatements (Token.mapMark id))
      (statements other) :=
  (parallel_spliced.statements (more_spliced fun _ _ => image_statements) stream other).2
    index parted

/-- A semicolon behind a statement that is kept, and ends on another token, makes no difference. -/
theorem agrees_of_keptAt (parted : Parted index stream other)
    (kept : KeptAt index (statements stream).log) :
    (statements stream).Agrees id (statements other) := by
  have unchanged : mapStatements (Token.mapMark id) = (id : List (Statement (Token α)) → _) :=
    funext mapStatements_id
  rw [← unchanged]
  cases spliced_statements parted with
  | passed agrees _ => exact agrees
  | before _ _ notYet _ _ => exact absurd kept notYet
  | arrived _ notYet _ _ _ => exact absurd kept notYet
  | lost never _ _ => exact absurd kept never

end Parse

end Scriptlet
