import Chanserv.Bot.Run
import Mathlib.Data.List.TakeWhile

/-! A command on the host.

The program is cut off at the first blank, its parameters at the first blank or tab:
not at one place, when a tab comes first. Every piece of the output takes the place of
the one before it, and goes through a `const char *`; what is reported is the last
piece, up to its first zero. -/
namespace Chanserv
open Text Program

/-! ### The command line -/

/-- There is no tab before the first blank. -/
def BlankFirst (text : Text) : Prop := ' ' ∈ text → '\t' ∉ before ' ' text

instance (text : Text) : Decidable (BlankFirst text) := inferInstanceAs (Decidable (_ → _))

/-- The program and the parameters are what is before one separator and what is behind it. -/
def CutAtOne (text program : Text) (parameters : Option Text) : Prop :=
  ' ' ∈ text → ∃ separator ∈ [' ', '\t'], ∃ rest, parameters = some rest ∧ text = program ++ separator :: rest

theorem before_append {program : Text} (rest : Text) (h : ' ' ∉ program) :
    before ' ' (program ++ ' ' :: rest) = program := by
  have hall : ∀ c ∈ program, decide (c ≠ ' ') = true := fun c hc => decide_eq_true (ne_of_mem_of_not_mem hc h)
  rw [before, List.takeWhile_append_of_pos hall, List.takeWhile_cons_of_neg (by simp), List.append_nil]

/-- The parameters begin behind the first blank or tab. -/
theorem commandLine_append {first rest : Text} {separator : Char} (hfirst : ∀ c ∈ first, c ≠ ' ' ∧ c ≠ '\t')
    (hseparator : separator = ' ' ∨ separator = '\t') (hblank : ' ' ∈ first ++ separator :: rest) :
    commandLine (first ++ separator :: rest) = (before ' ' (first ++ separator :: rest), some rest) := by
  have hall : ∀ c ∈ first, decide (c ≠ ' ' ∧ c ≠ '\t') = true := fun c hc => decide_eq_true (hfirst c hc)
  rw [commandLine, if_pos hblank, List.dropWhile_append_of_pos hall]
  rcases hseparator with rfl | rfl <;> rfl

theorem cutAtOne_iff (text : Text) : CutAtOne text (commandLine text).1 (commandLine text).2 ↔ BlankFirst text := by
  refine imp_congr_right fun hblank => ?_
  obtain ⟨program, rest, rfl, hprogram⟩ := List.eq_append_cons_of_mem hblank
  rw [before_append rest hprogram]
  constructor
  · rintro ⟨separator, -, parameters, hparameters, hcut⟩ htab
    obtain ⟨first, more, rfl, hfirst⟩ := List.eq_append_cons_of_mem htab
    have hboth : ∀ c ∈ first, c ≠ ' ' ∧ c ≠ '\t' := fun c hc =>
      ⟨ne_of_mem_of_not_mem (List.mem_append_left _ hc) hprogram, ne_of_mem_of_not_mem hc hfirst⟩
    have hblank' : ' ' ∈ first ++ '\t' :: (more ++ ' ' :: rest) := by simp
    have hline := commandLine_append hboth (.inr rfl) hblank'
    rw [← List.cons_append, ← List.append_assoc, before_append rest hprogram] at hline
    rw [hline] at hparameters hcut
    -- the words behind the tab are in both
    have hlength := congrArg List.length hcut
    obtain rfl := Option.some.inj hparameters
    simp only [List.length_append, List.length_cons] at hlength
    omega
  · intro htab
    have hboth : ∀ c ∈ program, c ≠ ' ' ∧ c ≠ '\t' := fun c hc =>
      ⟨ne_of_mem_of_not_mem hc hprogram, ne_of_mem_of_not_mem hc htab⟩
    rw [commandLine_append hboth (.inl rfl) hblank, before_append rest hprogram]
    exact ⟨' ', List.mem_cons_self, rest, rfl, rfl⟩

/-! ### The report -/

theorem readFromCli_append (chunks : List Text) (last : Text) : readFromCli (chunks ++ [last]) = cString last := by
  rw [readFromCli, List.foldl_append]
  rfl

theorem length_cString_le (t : Text) : (cString t).length ≤ t.length := (List.takeWhile_prefix _).length_le

theorem cString_eq_self_iff (t : Text) : cString t = t ↔ '\x00' ∉ t := by
  rw [cString, List.takeWhile_eq_self_iff]
  constructor
  · intro h hmem
    exact absurd (h _ hmem) (by decide)
  · intro h c hc
    exact decide_eq_true (ne_of_mem_of_not_mem hc h)

/-- Every piece but the last is empty, and there is no zero in the last. -/
def OnePiece (chunks : List Text) : Prop := (∀ chunk ∈ chunks.dropLast, chunk = []) ∧ '\x00' ∉ chunks.getLastD []

instance (chunks : List Text) : Decidable (OnePiece chunks) := inferInstanceAs (Decidable (_ ∧ _))

theorem readFromCli_eq_flatten_iff (chunks : List Text) : readFromCli chunks = chunks.flatten ↔ OnePiece chunks := by
  rcases List.eq_nil_or_concat chunks with rfl | ⟨init, last, rfl⟩
  · exact iff_of_true rfl (by decide)
  rw [List.concat_eq_append, readFromCli_append, OnePiece, List.dropLast_concat, List.getLastD_concat,
    List.flatten_append, List.flatten_singleton, ← List.flatten_eq_nil_iff, ← cString_eq_self_iff]
  constructor
  · intro h
    have hinit : init.flatten = [] := by
      have hlength := congrArg List.length h
      have hle := length_cString_le last
      rw [List.length_append] at hlength
      exact List.eq_nil_of_length_eq_zero (by omega)
    exact ⟨hinit, by rw [h, hinit, List.nil_append]⟩
  · rintro ⟨hinit, hlast⟩
    rw [hinit, hlast, List.nil_append]

/-! ### The step -/

section
variable {cfg : Config} {env : SmallTalkEnv} {message : Message} {c : Chat} {chunks : List Text}

/-- The step runs the command as it was written, and reports all of its output. -/
def RunsInFull (cfg : Config) (env : SmallTalkEnv) (message : Message) (c : Chat) (chunks : List Text) : Prop :=
  ∃ program parameters, (final (smallTalk cfg env message) c).sh.trace = c.sh.trace ++
      [.runCommand program parameters, .sendMessage (.named cfg.supportTgId) chunks.flatten .developer] ∧
    CutAtOne message.text program parameters

theorem smallTalk_hostCommand (hstat : c.ud.jiraTask.stat = developerRunHostCommand)
    (hrole : cfg.isDeveloper message.from_.id) (hcommand : env.command = .returns (.started chunks)) :
    (final (smallTalk cfg env message) c).sh.trace = c.sh.trace ++
      [.runCommand (commandLine message.text).1 (commandLine message.text).2,
        .sendMessage (.named cfg.supportTgId) (readFromCli chunks) .developer] := by
  have hmay : cfg.hasRole message.from_.id (roleForStep developerRunHostCommand) = true := hrole
  refine of_wp (P := fun _ (c' : Chat) => c'.sh.trace = _) ?_
  simp only [smallTalk, wp_bind, wp_get, hstat, hmay, if_true]
  show wp (developerHostCommand cfg env message) _ _ c
  simp only [developerHostCommand, wp_bind, wp_service, wp_call, hcommand]
  refine ⟨fun output houtput => ?_, fun x hx => by cases hx⟩
  obtain rfl := Reply.returns.inj houtput
  simp only [sendMsgToSupport, wp_bind, wp_service, wp_call, wp_pure]
  exact ⟨fun _ _ => List.append_assoc .., fun _ _ => List.append_assoc ..⟩

theorem runsInFull_iff (hstat : c.ud.jiraTask.stat = developerRunHostCommand)
    (hrole : cfg.isDeveloper message.from_.id) (hcommand : env.command = .returns (.started chunks)) :
    RunsInFull cfg env message c chunks ↔ readFromCli chunks = chunks.flatten ∧
      CutAtOne message.text (commandLine message.text).1 (commandLine message.text).2 := by
  have htrace := smallTalk_hostCommand hstat hrole hcommand
  constructor
  · rintro ⟨program, parameters, hfull, hcut⟩
    rw [htrace] at hfull
    obtain ⟨hrun, hsend⟩ := List.cons.inj (List.append_cancel_left hfull)
    obtain ⟨rfl, rfl⟩ := Effect.runCommand.inj hrun
    exact ⟨(Effect.sendMessage.inj (List.cons.inj hsend).1).2.1, hcut⟩
  · rintro ⟨hreport, hcut⟩
    exact ⟨_, _, by rw [htrace, hreport], hcut⟩

/-- The developer gets what he asks for exactly when the line has no tab before its first blank, and
the output comes in one piece without a zero. -/
theorem hostCommand_runs_in_full_iff (hstat : c.ud.jiraTask.stat = developerRunHostCommand)
    (hrole : cfg.isDeveloper message.from_.id) (hcommand : env.command = .returns (.started chunks)) :
    RunsInFull cfg env message c chunks ↔ OnePiece chunks ∧ BlankFirst message.text := by
  rw [runsInFull_iff hstat hrole hcommand, readFromCli_eq_flatten_iff, cutAtOne_iff]

end

/-- The developer, at the step. -/
def developer3 : Chat where
  ud :=
    { chatUserTgId := 3, chatUserTgName := [], chatUserFirstName := []
      jiraTask := {stat := developerRunHostCommand} }
  sh := {}

def commandEnv (chunks : List Text) : SmallTalkEnv :=
  {(UpdateEnv.calm 0).smallTalk with command := .returns (.started chunks)}

def commandFrom3 (line : String) : Message :=
  {messageId := 1, from_ := ⟨3, [], []⟩, chat := ⟨3, []⟩, text := of line}

theorem hostCommand_one_piece : RunsInFull {supportTgId := of "3"} (commandEnv [of "total 0"])
    (commandFrom3 "ls -l") developer3 [of "total 0"] :=
  (hostCommand_runs_in_full_iff rfl (by decide +kernel) rfl).mpr (by decide +kernel)

/-- Of two pieces the second is reported; and a word between a tab and a blank is run and passed. -/
theorem hostCommand_not_in_full :
    (readFromCli [of "a", of "b"] = of "b" ∧ ¬RunsInFull {supportTgId := of "3"} (commandEnv [of "a", of "b"])
      (commandFrom3 "ls -l") developer3 [of "a", of "b"]) ∧
    commandLine (of "echo\tfoo bar") = (of "echo\tfoo", some (of "foo bar")) ∧ ¬RunsInFull {supportTgId := of "3"}
      (commandEnv [of "foo bar"]) (commandFrom3 "echo\tfoo bar") developer3 [of "foo bar"] := by
  refine ⟨⟨by decide, fun h => ?_⟩, by decide +kernel, fun h => ?_⟩
  · have hreport := ((runsInFull_iff rfl (by decide +kernel) rfl).mp h).1
    exact absurd hreport (by decide)
  · have hcut := ((runsInFull_iff rfl (by decide +kernel) rfl).mp h).2
    exact absurd ((cutAtOne_iff _).mp hcut) (by decide +kernel)

end Chanserv
