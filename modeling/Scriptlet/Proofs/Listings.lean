import Scriptlet.Proofs.FrontEnds

/-!
# Listings

A listing can be read back. A message may quote any character but a line feed, since no token has a
blank in it; so every line ends where its problem does, and the numbers in it end at the marks
behind them. What the path of the file is does not matter for this, as it is the same in every line.
-/

namespace Scriptlet

/-! ## One line -/

/-- A numeral ends where a character stands that is no digit. -/
theorem Decimal.natural_unique {m n : Nat} {c : Char} {rest rest' : List Char}
    (notDigit : c.isDigit = false)
    (same : (natural m).toList ++ c :: rest = (natural n).toList ++ c :: rest') :
    m = n ∧ rest = rest' := by
  obtain ⟨same_digits, same_rest⟩ := run_unique (fun _ => isDigit_of_mem_natural)
    (fun _ => isDigit_of_mem_natural) notDigit same
  refine ⟨?_, same_rest⟩
  rw [← value_natural m, same_digits, value_natural]

theorem Diagnostic.chars_details (diagnostic : Diagnostic) : diagnostic.details.toList =
    " (line ".toList ++ ((Decimal.natural diagnostic.location.line).toList ++ ',' ::
      (" col ".toList ++ ((Decimal.natural diagnostic.location.column).toList ++ ')' ::
        (": ".toList ++ diagnostic.message.toList)))) := by
  simp [details, Location.position]

/-- The diagnostic is about the file and has no line feed but perhaps in the path. -/
structure Diagnostic.Plain (path : String) (diagnostic : Diagnostic) : Prop where
  path_eq : diagnostic.location.path = path
  single : OneLine diagnostic.details

/-- What is reported of a text is about that text, in one line. -/
theorem plain_of_mem_parseText {text path : String} :
    ∀ diagnostic ∈ (parseText text path).2, diagnostic.Plain path := fun diagnostic member =>
  ⟨path_of_mem_parseText diagnostic member, oneLine_details diagnostic member⟩

namespace Diagnostic

variable {path : String} {diagnostic other : Diagnostic} {diagnostics others : List Diagnostic}

/-- In a file a diagnostic is told by what stands behind the path. -/
theorem eq_of_details (same_path : diagnostic.location.path = other.location.path)
    (same : diagnostic.details = other.details) : diagnostic = other := by
  have chars := congrArg String.toList same
  rw [chars_details, chars_details] at chars
  obtain ⟨same_line, chars⟩ := Decimal.natural_unique rfl (List.append_cancel_left chars)
  obtain ⟨same_column, chars⟩ := Decimal.natural_unique rfl (List.append_cancel_left chars)
  have same_message := String.toList_inj.mp (List.append_cancel_left chars)
  obtain ⟨_, _, _, _⟩ := diagnostic
  obtain ⟨_, _, _, _⟩ := other
  simp_all

/-! ## All lines -/

/-- The line of a listing that gives a diagnostic its number, without its end. -/
def line (number : Nat) (diagnostic : Diagnostic) : String :=
  "[" ++ Decimal.natural number ++ "] In " ++ diagnostic.location.path ++ diagnostic.details

theorem numbered_eq (number : Nat) (diagnostic : Diagnostic) :
    diagnostic.numbered number = diagnostic.line number ++ "\n" := by
  simp only [numbered, line, details, String.append_assoc]

theorem chars_numberedFrom (number : Nat) (diagnostic : Diagnostic)
    (diagnostics : List Diagnostic) : (numberedFrom number (diagnostic :: diagnostics)).toList =
      ("[" ++ Decimal.natural number ++ "] In " ++ diagnostic.location.path).toList ++
        (diagnostic.details.toList ++ '\n' :: (numberedFrom (number + 1) diagnostics).toList) := by
  simp [numberedFrom, numbered_eq, line]

theorem ne_lineFeed_of_oneLine {text : String} (single : OneLine text) :
    ∀ c ∈ text.toList, (c != '\n') = true := by
  intro c member
  exact bne_iff_ne.mpr fun feed => single (feed ▸ member)

/-- Problems in one file are told by their lines. -/
theorem numberedFrom_inj {number : Nat} (plain : ∀ diagnostic ∈ diagnostics, diagnostic.Plain path)
    (plain' : ∀ diagnostic ∈ others, diagnostic.Plain path)
    (same : numberedFrom number diagnostics = numberedFrom number others) :
    diagnostics = others := by
  induction diagnostics generalizing number others with
  | nil =>
    cases others with
    | nil => rfl
    | cons other others => simp [numberedFrom, numbered] at same
  | cons diagnostic diagnostics ih =>
    cases others with
    | nil => simp [numberedFrom, numbered] at same
    | cons other others =>
      obtain ⟨first, plain⟩ := List.forall_mem_cons.mp plain
      obtain ⟨first', plain'⟩ := List.forall_mem_cons.mp plain'
      have same_path := first.path_eq.trans first'.path_eq.symm
      have chars := congrArg String.toList same
      rw [chars_numberedFrom, chars_numberedFrom, same_path] at chars
      -- A message may have any mark of a listing in it, so a line is cut at its end alone.
      obtain ⟨same_details, same_rest⟩ := run_unique (ne_lineFeed_of_oneLine first.single)
        (ne_lineFeed_of_oneLine first'.single) rfl (List.append_cancel_left chars)
      rw [eq_of_details same_path (String.toList_inj.mp same_details),
        ih plain plain' (String.toList_inj.mp same_rest)]

/-- The lines of a listing from a number on. -/
def linesFrom (number : Nat) (diagnostics : List Diagnostic) : List String :=
  diagnostics.mapIdx fun i diagnostic => diagnostic.line (number + i)

theorem linesFrom_cons (number : Nat) (diagnostic : Diagnostic) (diagnostics : List Diagnostic) :
    linesFrom number (diagnostic :: diagnostics) =
      diagnostic.line number :: linesFrom (number + 1) diagnostics := by
  simp only [linesFrom, List.mapIdx_cons, Nat.add_zero, Nat.add_assoc, Nat.add_comm 1]

/-- A listing is its lines, each with a line feed behind it. -/
theorem numberedFrom_eq_join (number : Nat) (diagnostics : List Diagnostic) :
    numberedFrom number diagnostics =
      String.join ((linesFrom number diagnostics).map (· ++ "\n")) := by
  induction diagnostics generalizing number with
  | nil => rfl
  | cons diagnostic diagnostics ih =>
    rw [numberedFrom, ih, numbered_eq, linesFrom_cons, List.map_cons, String.join_cons]

theorem oneLine_of_mem_linesFrom {number : Nat} (single : OneLine path)
    (plain : ∀ diagnostic ∈ diagnostics, diagnostic.Plain path) :
    ∀ line ∈ linesFrom number diagnostics, OneLine line := by
  intro text member
  obtain ⟨i, within, rfl⟩ := List.mem_mapIdx.mp member
  obtain ⟨path_eq, details⟩ := plain _ (List.getElem_mem within)
  rw [line, path_eq]
  simp only [oneLine_append, oneLine_natural, single, details, and_true]
  decide

end Diagnostic

/-- So many lines have so many line feeds. -/
theorem count_join {lines : List String} (single : ∀ line ∈ lines, OneLine line) :
    (String.join (lines.map (· ++ "\n"))).toList.count '\n' = lines.length := by
  induction lines with
  | nil => rfl
  | cons line lines ih =>
    obtain ⟨first, others⟩ := List.forall_mem_cons.mp single
    have none_in : line.toList.count '\n' = 0 := List.count_eq_zero.mpr first
    rw [List.map_cons, String.join_cons, String.toList_append, List.count_append, ih others,
      String.toList_append, List.count_append, none_in, List.length_cons]
    simp [Nat.add_comm]

/-- The listing of what is wrong with a text tells all of it: two texts that have the same listing
in one file have the same problems at the same places. It has a heading of two lines and then a line
for each problem, with its number. No message goes over the end of a line; so if the path does not
do so either, these are all the lines there are. -/
theorem listing_unambiguous (path text : String) :
    let found := (parseText text path).2
    (∀ other, Diagnostic.listing found = Diagnostic.listing (parseText other path).2 →
      found = (parseText other path).2) ∧
    (∀ diagnostic ∈ found, OneLine diagnostic.message) ∧
    Diagnostic.listing found = "found parse errors\n\n" ++
      String.join ((Diagnostic.linesFrom 1 found).map (· ++ "\n")) ∧
    (OneLine path → (∀ line ∈ Diagnostic.linesFrom 1 found, OneLine line) ∧
      (Diagnostic.listing found).toList.count '\n' = found.length + 2) := by
  intro found
  have listing_eq : Diagnostic.listing found = "found parse errors\n\n" ++
      String.join ((Diagnostic.linesFrom 1 found).map (· ++ "\n")) :=
    congrArg ("found parse errors\n\n" ++ ·) (Diagnostic.numberedFrom_eq_join 1 found)
  refine ⟨?_, ?_, listing_eq, ?_⟩
  · intro other same
    have same_lines := (String.append_right_inj _).mp same
    exact Diagnostic.numberedFrom_inj plain_of_mem_parseText plain_of_mem_parseText same_lines
  · intro diagnostic member
    have details : OneLine diagnostic.details := oneLine_details diagnostic member
    exact (oneLine_append.mp details).2
  · intro single
    have lines : ∀ line ∈ Diagnostic.linesFrom 1 found, OneLine line :=
      Diagnostic.oneLine_of_mem_linesFrom single plain_of_mem_parseText
    refine ⟨lines, ?_⟩
    have heading : "found parse errors\n\n".toList.count '\n' = 2 := by decide
    rw [listing_eq, String.toList_append, List.count_append, count_join lines, heading,
      Diagnostic.linesFrom, List.length_mapIdx, Nat.add_comm]

/-- Messages that quote a parenthesis and a character that is no token, before a text goes on. -/
theorem listing_unambiguous_quoting :
    let text := "let ) @"
    let other := "let ) @ a"
    Diagnostic.listing (parseText text "p").2 = Diagnostic.listing (parseText other "p").2 ∧
      OneLine "p" ∧ (parseText text "p").2 = (parseText other "p").2 ∧
      (Diagnostic.listing (parseText text "p").2).toList.count '\n' = 5 := by
  intro text other
  have same : Diagnostic.listing (parseText text "p").2 =
      Diagnostic.listing (parseText other "p").2 := by decide +kernel
  have single : OneLine "p" := by decide
  have three : (parseText text "p").2.length = 3 := by decide +kernel
  have facts := listing_unambiguous "p" text
  refine ⟨same, single, facts.1 other same, ?_⟩
  rw [(facts.2.2.2 single).2, three]

end Scriptlet
