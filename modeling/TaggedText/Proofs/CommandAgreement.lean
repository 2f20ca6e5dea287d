/-
Commands on the same file.

The commands that need a document read it alike: where the file holds none, they fail with the same error line
(`run_of_unread`). Where it holds one, checking, formatting and outlining go well, since every document that is read can
be written (`run_of_read`). JSON is printed of documents that are not too deep (`runJson_exit_iff`).

Nothing is printed before the last step that can fail: a run goes well, or leaves behind its error line and nothing
else (`Command.failed_or_exit_eq_zero`).
-/
import TaggedText.Proofs.Formatting

namespace TaggedText.CommandLine

/-! ## Files that hold a document, and others -/

/-- a file without a document is refused with the error of its text -/
theorem readDocument_of_error (path : Text) {rules : BuildRules} {s : Text} {e : BuildError}
    (h : Document.read rules s = .error e) :
    ∃ events, readDocument path rules (.text s) = ⟨.error s!"parsing {String.ofList path}: {e.message}", events⟩ := by
  cases hbuilt : Document.ofText rules s with
  | mk value events =>
    obtain rfl : value = .error e := by rw [← h, Document.read, hbuilt]
    exact ⟨events, by simp only [readDocument, sourceOf, hbuilt]⟩

def documentCommands (path : Text) (layout : Layout) (rules : BuildRules) : List Command :=
  [.check path rules, .format path layout rules, .tree path false rules, .tree path true rules]

variable {files : Text → FileState} {path s : Text} {rules : BuildRules} {layout : Layout} {d : Document}

/-- all commands that read a document fail alike where there is none -/
theorem run_of_unread {e : BuildError} (hfile : files path = .text s) (h : Document.read rules s = .error e) :
    ∃ events, ∀ command ∈ documentCommands path layout rules,
      command.run files = .failed s!"parsing {String.ofList path}: {e.message}" events := by
  obtain ⟨events, hdocument⟩ := readDocument_of_error path h
  refine ⟨events, ?_⟩
  simp [documentCommands, Command.run, runCheck, runFormat, runOutline, runJson, hfile, hdocument]

/-- checking, formatting and outlining go well where there is a document -/
theorem run_of_read (hfile : files path = .text s) (h : Document.read rules s = .ok d) :
    ∀ command ∈ [Command.check path rules, .format path layout rules, .tree path false rules],
      (command.run files).exit = 0 := by
  obtain ⟨events, hdocument⟩ := readDocument_of_read path h
  obtain ⟨t, -, hwrite, -⟩ := (Document.wellFormed_of_read h).exists_write layout
  simp [Command.run, runCheck, runFormat, runOutline, hfile, hdocument, hwrite, Outcome.printed]

/-- a document is printed as JSON up to a depth -/
theorem runJson_exit_iff (path : Text) (h : Document.read rules s = .ok d) :
    (runJson path rules (.text s)).exit = 0 ↔ d.root.depth ≤ maxJsonDepth := by
  obtain ⟨events, hdocument⟩ := readDocument_of_read path h
  simp only [runJson, hdocument]
  split_ifs with hdeep
  · simp [Outcome.failed, hdeep]
  · simpa [Outcome.printed] using hdeep

/-- a text that is read splits into tokens, which can be listed -/
theorem runTokens_of_read (path : Text) (h : Document.read rules s = .ok d) :
    (runTokens path (.text s)).exit = 0 := by
  obtain ⟨ts, htokens, -⟩ := Document.read_eq_ok.1 h
  cases hsplit : s.tokens with
  | mk value events =>
    obtain rfl : value = .ok ts := by rw [← htokens, hsplit]
    simp only [runTokens, sourceOf, hsplit, Outcome.printed]

/-! ## Runs that fail -/

/-- **A run goes well or leaves only its error line.** Every step that can fail comes before anything is printed. -/
theorem Command.failed_or_exit_eq_zero (files : Text → FileState) (command : Command) :
    (∃ message events, command.run files = .failed message events) ∨ (command.run files).exit = 0 := by
  cases command with
  | check path rules =>
    simp only [run, runCheck]
    split
    · exact Or.inl ⟨_, _, rfl⟩
    · exact Or.inr rfl
  | tokens path =>
    simp only [run, runTokens]
    split
    · exact Or.inl ⟨_, _, rfl⟩
    · split
      · exact Or.inl ⟨_, _, rfl⟩
      · exact Or.inr rfl
  | format path layout rules =>
    simp only [run, runFormat]
    split
    · exact Or.inl ⟨_, _, rfl⟩
    · split
      · exact Or.inl ⟨_, _, rfl⟩
      · exact Or.inr rfl
  | tree path json rules =>
    cases json with
    | false =>
      simp only [run, runOutline]
      split
      · exact Or.inl ⟨_, _, rfl⟩
      · exact Or.inr rfl
    | true =>
      simp only [run, runJson]
      split
      · exact Or.inl ⟨_, _, rfl⟩
      · split_ifs
        · exact Or.inl ⟨_, _, rfl⟩
        · exact Or.inr rfl
  | version => exact Or.inr rfl
  | help => exact Or.inr rfl

/-- a run with the exit code 1 prints nothing, whatever the arguments; those that make no command have another code -/
theorem Outcome.stdout_of_exit_eq_one (files : Text → FileState) (arguments : List Text)
    (h : (Outcome.ofArguments files arguments).exit = 1) : (Outcome.ofArguments files arguments).stdout = [] := by
  simp only [Outcome.ofArguments] at h ⊢
  cases hcommand : Command.ofArguments arguments with
  | error e => rfl
  | ok command =>
    rw [hcommand] at h
    rcases command.failed_or_exit_eq_zero files with ⟨message, events, hfailed⟩ | hzero
    · simp only [hfailed, Outcome.failed]
    · exact absurd (hzero.symm.trans h) (by decide)

/-- **Commands agree on what a document is.** On a file with a text, with the same rules, checking, formatting in any
layout and outlining go well exactly if the text can be read, and printing JSON if the document is not too deep
besides; a file that goes well with checking goes well with listing its tokens. Where the text cannot be read, all four
end with the same error line. And whatever the arguments and the files, a run that fails prints nothing. -/
theorem commands_agree (files : Text → FileState) (path : Text) {s : Text} (rules : BuildRules) (layout : Layout)
    (hfile : files path = .text s) :
    (∀ command ∈ [Command.check path rules, .format path layout rules, .tree path false rules],
      (command.run files).exit = 0 ↔ ∃ d, Document.read rules s = .ok d) ∧
    (((Command.tree path true rules).run files).exit = 0 ↔
      ∃ d, Document.read rules s = .ok d ∧ d.root.depth ≤ 2048) ∧
    (((Command.check path rules).run files).exit = 0 → ((Command.tokens path).run files).exit = 0) ∧
    (∀ e, Document.read rules s = .error e → ∀ command ∈ documentCommands path layout rules,
      (command.run files).exit = 1 ∧
        (command.run files).stderr = s!"Error: parsing {String.ofList path}: {e.message}\n".toList) ∧
    ∀ (files' : Text → FileState) (arguments : List Text), (Outcome.ofArguments files' arguments).exit = 1 →
      (Outcome.ofArguments files' arguments).stdout = [] := by
  have hfails : ∀ e, Document.read rules s = .error e → ∀ command ∈ documentCommands path layout rules,
      (command.run files).exit = 1 ∧
        (command.run files).stderr = s!"Error: parsing {String.ofList path}: {e.message}\n".toList := by
    intro e h command hmem
    obtain ⟨events, hrun⟩ := run_of_unread hfile h
    rw [hrun command hmem]
    exact ⟨rfl, rfl⟩
  refine ⟨?_, ?_, ?_, hfails, Outcome.stdout_of_exit_eq_one⟩
  · intro command hmem
    cases h : Document.read rules s with
    | ok d => exact iff_of_true (run_of_read hfile h command hmem) ⟨d, rfl⟩
    | error e =>
      have hone := (hfails e h command (List.mem_append_left [Command.tree path true rules] hmem)).1
      rw [hone]
      simp
  · cases h : Document.read rules s with
    | ok d =>
      simp only [Command.run, hfile, runJson_exit_iff path h]
      simp [maxJsonDepth]
    | error e =>
      have hone := (hfails e h (.tree path true rules) (by simp [documentCommands])).1
      rw [hone]
      simp
  · intro hcheck
    cases h : Document.read rules s with
    | ok d =>
      simp only [Command.run, hfile]
      exact runTokens_of_read path h
    | error e =>
      have hone := (hfails e h (.check path rules) (by simp [documentCommands])).1
      rw [hone] at hcheck
      cases hcheck

/-- a document at the limit of levels and above it -/
theorem commands_agree_limited :
    (∃ d, Document.read ⟨true, some 2, none⟩ "<a><b/></a>".toList = .ok d ∧
      (∀ command ∈ [Command.check ['f'] ⟨true, some 2, none⟩, .format ['f'] .compact ⟨true, some 2, none⟩,
          .tree ['f'] false ⟨true, some 2, none⟩],
        (command.run fun _ => .text "<a><b/></a>".toList).exit = 0) ∧
      ((Command.tree ['f'] true ⟨true, some 2, none⟩).run fun _ => .text "<a><b/></a>".toList).exit = 0 ∧
      ((Command.tokens ['f']).run fun _ => .text "<a><b/></a>".toList).exit = 0) ∧
    ∃ e, Document.read ⟨true, some 1, none⟩ "<a><b/></a>".toList = .error e ∧
      ∀ command ∈ documentCommands ['f'] .compact ⟨true, some 1, none⟩,
        (command.run fun _ => .text "<a><b/></a>".toList).exit = 1 ∧
          (command.run fun _ => .text "<a><b/></a>".toList).stderr =
            s!"Error: parsing f: {e.message}\n".toList := by
  obtain ⟨hread, hdepth, hdeep⟩ : Document.read ⟨true, some 2, none⟩ "<a><b/></a>".toList =
        .ok ⟨⟨['a'], .empty, .children [⟨['b'], .empty, .empty⟩]⟩, .none⟩ ∧
      (⟨['a'], .empty, .children [⟨['b'], .empty, .empty⟩]⟩ : Element).depth = 2 ∧
      Document.read ⟨true, some 1, none⟩ "<a><b/></a>".toList = .error ⟨.tooDeep 1, ⟨1, 4⟩⟩ :=
    ⟨by cbv, by cbv, by cbv⟩
  obtain ⟨hread_iff, hjson_iff, htokens, -, -⟩ :=
    commands_agree (fun _ => .text "<a><b/></a>".toList) ['f'] ⟨true, some 2, none⟩ .compact rfl
  obtain ⟨-, -, -, herror, -⟩ :=
    commands_agree (fun _ => .text "<a><b/></a>".toList) ['f'] ⟨true, some 1, none⟩ .compact rfl
  have hzero := fun command hmem => (hread_iff command hmem).2 ⟨_, hread⟩
  refine ⟨⟨_, hread, hzero, hjson_iff.2 ⟨_, hread, ?_⟩, htokens (hzero _ List.mem_cons_self)⟩, _, hdeep,
    herror _ hdeep⟩
  rw [hdepth]
  decide

end TaggedText.CommandLine
