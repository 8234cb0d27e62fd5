/-
How far a command line raises the verbosity.

Every accepted command line is a row of pieces, with the word for the command perhaps between
them, so the steps it asks for can be counted in its pieces.  Each of the two scopes counts its
own, up to 255, and where both have counted, what the program itself has counted is lost: the
command's own number of steps wins, as it does for any other option.
-/
import Salutation.Proofs.CommandLine.Piece

namespace Salutation

/-- How many steps a verbosity is above the least. -/
def Verbosity.rank : Verbosity → Nat
  | .quiet => 0
  | .normal => 1
  | .verbose => 2
  | .debug => 3

/-- Raising a verbosity goes up step by step and stops at the most. -/
theorem Verbosity.rank_raised (verbosity : Verbosity) (steps : Nat) :
    (verbosity.raised steps).rank = min debug.rank (verbosity.rank + steps) := by
  induction steps generalizing verbosity with
  | zero => cases verbosity <;> rfl
  | succ steps ih =>
      have hnext : verbosity.next.rank = min debug.rank (verbosity.rank + 1) := by
        cases verbosity <;> rfl
      rw [raised, ih, hnext]
      omega

namespace CommandLine

/-- A command line cut into pieces. -/
structure Line where
  before : List Piece
  /-- The pieces behind the word for the command, if the word is there. -/
  after? : Option (List Piece)
  /-- Whether a double dash ends the line. -/
  dashes : Bool
  before_fits : ∀ piece ∈ before, piece.Fits .main
  after_fits : ∀ piece ∈ after?.getD [], piece.Fits .config

namespace Line

/-- What may stand at the end of a line. -/
def ending (line : Line) : List Bytes := if line.dashes then [[dash, dash]] else []

/-- The arguments of a line. -/
def arguments (line : Line) : List Bytes :=
  line.before.flatMap Piece.arguments ++
    match line.after? with
    | none => line.ending
    | some after => configWord :: (after.flatMap Piece.arguments ++ line.ending)

/-- The steps that a line asks for in front of the word for the command. -/
def stepsBefore (line : Line) : Nat := (line.before.map Piece.steps).sum

/-- The steps that a line asks for behind the word for the command. -/
def stepsBehind (line : Line) : Nat := ((line.after?.getD []).map Piece.steps).sum

/-- All the steps that a line asks for. -/
def steps (line : Line) : Nat := line.stepsBefore + line.stepsBehind

/-- The steps of a line that make a difference: those behind the word for the command, or all of
them if there are none there. -/
def stepsRead (line : Line) : Nat :=
  if 0 < line.stepsBehind then line.stepsBehind else line.stepsBefore

end Line

/-! ### Both scopes

A command line is read by one scope or by two in turn, and the second starts from nothing.  What
was counted on each side is known from the pieces there, and only how the two are put together
decides what becomes of it.
-/

/-- What an accepted command line has been read to. -/
inductive Accepts (arguments : List Bytes) : Request → Prop where
  | alone {outer settled : State} (hscan : scan .main false {} arguments = .ok (outer, none))
      (hsettle : outer.settle .main = .ok settled) : Accepts arguments settled.request
  | both {outer settled inner settled' : State} {rest : List Bytes} {left : Option (List Bytes)}
      (hscan : scan .main false {} arguments = .ok (outer, some rest))
      (hsettle : outer.settle .main = .ok settled)
      (hscan' : scan .config false {} rest = .ok (inner, left))
      (hsettle' : inner.settle .config = .ok settled') : Accepts arguments (merge settled settled')

theorem accepts_of_parse {arguments : List Bytes} {request : Request}
    (h : parse arguments = .ok request) : Accepts arguments request := by
  unfold parse at h
  split at h
  case h_1 => cases h
  case h_2 outer hscan =>
    cases hsettle : outer.settle .main with
    | error stop =>
        rw [hsettle] at h
        cases h
    | ok settled =>
        rw [hsettle] at h
        cases h
        exact .alone hscan hsettle
  case h_3 outer rest hscan =>
    split at h
    case h_1 => cases h
    case h_2 inner left hscan' =>
      split at h
      case h_1 => cases h
      case h_2 settled' hsettle' =>
        cases hsettle : outer.settle .main with
        | error stop =>
            rw [hsettle] at h
            cases h
        | ok settled =>
            rw [hsettle] at h
            cases h
            exact .both hscan hsettle hscan' hsettle'

/-- At the end of a line nothing changes any more. -/
theorem scan_ending {scope : Scope} {state : State} (hawaiting : state.awaiting? = none)
    (line : Line) : scan scope false state line.ending = .ok (state, none) := by
  unfold Line.ending
  cases line.dashes with
  | false => rw [if_neg (by simp), scan]
  | true =>
      have hform : Argument.ofBytes [dash, dash] = .dashes := by decide
      rw [if_pos rfl, scan_form (by simp [hawaiting]) (by simp [hform])]
      simp only [hform]
      rw [scan]

/-- The arguments of a command that are read whole are pieces. -/
theorem exists_pieces_config {arguments : List Bytes} {final settled : State}
    {left : Option (List Bytes)} (hscan : scan .config false {} arguments = .ok (final, left))
    (hsettle : final.settle .config = .ok settled) :
    ∃ (pieces : List Piece) (tail : List Bytes), (∀ piece ∈ pieces, piece.Fits .config) ∧
      arguments = pieces.flatMap Piece.arguments ++ tail ∧ (tail = [] ∨ tail = [[dash, dash]]) := by
  obtain ⟨pieces, tail, hfits, hsplit, ⟨_, hscope, -⟩ | ⟨htail, -⟩⟩ :=
    exists_pieces counts_zero rfl hscan hsettle
  · cases hscope
  · exact ⟨pieces, tail, hfits, hsplit, htail⟩

/-- A tail that ends the reading is a line's ending. -/
theorem exists_dashes {tail : List Bytes} (h : tail = [] ∨ tail = [[dash, dash]]) :
    ∃ dashes : Bool, tail = if dashes then [[dash, dash]] else [] := by
  rcases h with rfl | rfl
  · exact ⟨false, rfl⟩
  · exact ⟨true, rfl⟩

/-- **Every accepted command line is cut into pieces.** -/
theorem exists_line {arguments : List Bytes} {request : Request}
    (h : Accepts arguments request) : ∃ line : Line, line.arguments = arguments := by
  cases h with
  | alone hscan hsettle =>
      obtain ⟨pieces, tail, hfits, rfl, ⟨_, -, -, hleft⟩ | ⟨htail, -⟩⟩ :=
        exists_pieces counts_zero rfl hscan hsettle
      · cases hleft
      · obtain ⟨dashes, rfl⟩ := exists_dashes htail
        exact ⟨⟨pieces, none, dashes, hfits, nofun⟩, rfl⟩
  | both hscan hsettle hscan' hsettle' =>
      obtain ⟨pieces, tail, hfits, rfl, ⟨after, -, rfl, hleft⟩ | ⟨-, hleft⟩⟩ :=
        exists_pieces counts_zero rfl hscan hsettle
      · cases hleft
        obtain ⟨pieces', tail', hfits', rfl, htail⟩ := exists_pieces_config hscan' hsettle'
        obtain ⟨dashes, rfl⟩ := exists_dashes htail
        exact ⟨⟨pieces, some pieces', dashes, hfits, hfits'⟩, rfl⟩
      · cases hleft

/-- The steps that are read are those of the command, or else those of the program itself. -/
theorem verbose_of_line {request : Request} {line : Line} (h : Accepts line.arguments request) :
    request.verbose = min 255 line.stepsRead := by
  cases h with
  | @alone outer settled hscan hsettle =>
      obtain ⟨next, hrest, hcounts, hnone⟩ := scan_pieces line.before_fits counts_zero rfl hscan
      cases hafter : line.after? with
      | some after =>
          simp only [hafter, scan_configWord hnone] at hrest
          cases hrest
      | none =>
          simp only [hafter, scan_ending hnone] at hrest
          cases hrest
          have hbehind : line.stepsBehind = 0 := by simp [Line.stepsBehind, hafter]
          have hverbose := (hcounts.settle hsettle).1.verbose
          rw [Nat.zero_add] at hverbose
          rw [Line.stepsRead, if_neg (by omega)]
          exact hverbose
  | @both outer settled inner settled' rest left hscan hsettle hscan' hsettle' =>
      obtain ⟨next, hrest, hcounts, hnone⟩ := scan_pieces line.before_fits counts_zero rfl hscan
      cases hafter : line.after? with
      | none =>
          simp only [hafter, scan_ending hnone] at hrest
          cases hrest
      | some after =>
          simp only [hafter, scan_configWord hnone] at hrest
          cases hrest
          have hfits : ∀ piece ∈ after, piece.Fits .config := by
            simpa [hafter] using line.after_fits
          obtain ⟨next', hrest', hcounts', hnone'⟩ := scan_pieces hfits counts_zero rfl hscan'
          rw [scan_ending hnone'] at hrest'
          cases hrest'
          have hbehind : line.stepsBehind = (after.map Piece.steps).sum := by
            simp [Line.stepsBehind, hafter]
          obtain ⟨hsettled, -⟩ := hcounts.settle hsettle
          obtain ⟨hsettled', -⟩ := hcounts'.settle hsettle'
          rw [Nat.zero_add] at hsettled hsettled'
          show (if .verbose ∈ settled'.used then settled'.verbose else settled.verbose) = _
          simp only [hsettled'.used, hsettled'.verbose, hsettled.verbose]
          rw [Line.stepsRead, hbehind]
          split <;> rfl

/-- **An accepted command line raises the verbosity by the steps of one scope.**  These are the
steps asked for behind the word for the command, or, if there are none, those in front of it, up
to 255 of them.  So it raises it by all its steps if only one side has any, and the verbosity
goes up by as many, as far as there is more. -/
theorem parse_verbose {arguments : List Bytes} {request : Request}
    (h : parse arguments = .ok request) :
    (∃ line : Line, line.arguments = arguments) ∧
    ∀ line : Line, line.arguments = arguments →
      request.verbose = min 255 line.stepsRead ∧
      (line.stepsBefore = 0 ∨ line.stepsBehind = 0 → request.verbose = min 255 line.steps) ∧
      ∀ config : Config, (request.apply config).output.verbosity.rank =
        min Verbosity.debug.rank (config.output.verbosity.rank + line.stepsRead) := by
  have haccepts := accepts_of_parse h
  refine ⟨exists_line haccepts, ?_⟩
  rintro line rfl
  have hverbose := verbose_of_line haccepts
  refine ⟨hverbose, ?_, ?_⟩
  · intro hside
    have hall : line.stepsRead = line.steps := by
      unfold Line.stepsRead Line.steps
      split <;> omega
    rw [hverbose, hall]
  · intro config
    have hdebug : Verbosity.debug.rank = 3 := rfl
    show (config.output.verbosity.raised request.verbose).rank = _
    rw [Verbosity.rank_raised, hverbose, hdebug]
    omega

/-- Letters in front of a name, a long name, and a message that looks like a letter: three steps
take the least verbosity to the most. -/
theorem parse_verbose_of_letters_before_name :
    let line : Line := ⟨[.letter 2 .name (.apart (bytesOf "config")), .flag .verbose,
      .letter 0 .message (.apart (bytesOf "-v"))], some [.flag .json], false,
      by simp [Piece.Fits, Placed.Suits]; decide, by simp [Piece.Fits]; decide⟩
    let request : Request := ⟨some "config", some "-v", true, 3, none, true⟩
    line.arguments =
        ["-vvn", "config", "--verbose", "-m", "-v", "config", "--json"].map bytesOf ∧
      parse line.arguments = .ok request ∧ request.verbose = min 255 line.steps ∧
      (request.apply { output := { verbosity := .quiet } }).output.verbosity.rank =
        Verbosity.debug.rank := by
  intro line request
  have hparse : parse line.arguments = .ok request := by decide +kernel
  obtain ⟨-, hsteps⟩ := parse_verbose hparse
  obtain ⟨-, hside, hraised⟩ := hsteps line rfl
  exact ⟨by decide +kernel, hparse, hside (Or.inr rfl), hraised _⟩

/-- Letters on both sides of the word for the command are not added up. -/
theorem verbose_not_added_up :
    let line : Line := ⟨[.letters 1], some [.letters 0], false, by simp [Piece.Fits],
      by simp [Piece.Fits]⟩
    line.arguments = ["-vv", "config", "-v"].map bytesOf ∧ line.steps = 3 ∧
      parse line.arguments = .ok { verbose := 1, printsConfig := true } := by
  decide +kernel

end CommandLine

end Salutation
