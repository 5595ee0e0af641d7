import DesignMarkup.Command.Run
import DesignMarkup.Proofs.Command.Files
import DesignMarkup.Proofs.Document.Acceptance

/-!
Commands in a workspace.  A command reads one file, and what it writes is a list of files, which go
to the workspace one after the other until one is refused.
-/

namespace DesignMarkup

namespace Workspace

/-- What a command comes to in a workspace. -/
def run (w : Workspace) (command : StateM Workspace CommandResult) : CommandResult × Workspace :=
  StateT.run command w

/-- Write files in order.  The path of the first one that is refused is told, if there is one. -/
def writeAll (w : Workspace) : List (String × String) → Option String × Workspace
  | [] => (none, w)
  | (path, contents) :: rest =>
      match w.write? path contents with
      | some w => w.writeAll rest
      | none => (some path, w)

/-- The text of a file, or why there is none. -/
def source (w : Workspace) (path : String) : Except CommandError String :=
  match w.read path with
  | .missing => .error (.fileNotFound path)
  | .unreadable => .error (.unreadable path)
  | .text contents => .ok contents

/-- The document of a file, or why there is none. -/
def document (w : Workspace) (path : String) : Except CommandError Document :=
  (w.source path).bind (Command.documentOfText path)

theorem source_eq_ok_iff {w : Workspace} {path contents : String} :
    w.source path = .ok contents ↔ w.read path = .text contents := by
  rw [source]
  cases w.read path <;> simp

theorem document_eq_ok_iff {w : Workspace} {path : String} {d : Document} :
    w.document path = .ok d ↔
      ∃ contents, w.read path = .text contents ∧ Command.documentOfText path contents = .ok d := by
  simp only [← source_eq_ok_iff, document]
  cases w.source path <;> simp [Except.bind]

section WriteAll

variable {w : Workspace} {files : List (String × String)}

/-- No file is refused where each path takes one. -/
theorem writeAll_eq_none_iff :
    (w.writeAll files).1 = none ↔ ∀ file ∈ files, w.Takes file.1 := by
  induction files generalizing w with
  | nil => simp [writeAll]
  | cons file rest ih =>
      obtain ⟨path, contents⟩ := file
      rw [writeAll, List.forall_mem_cons]
      cases hwrite : w.write? path contents with
      | none =>
          have hrefused : ¬ w.Takes path := by
            intro htakes
            obtain ⟨next, hnext⟩ := (takes_iff contents).mp htakes
            rw [hwrite] at hnext
            cases hnext
          simp [hrefused]
      | some next =>
          have htakes : w.Takes path := (takes_iff contents).mpr ⟨next, hwrite⟩
          simp [ih, htakes, (samePlaces_write? hwrite).takes_iff]

/-- What lies elsewhere is read as before, whether a file was refused or not. -/
theorem read_writeAll_of_ne {other : String}
    (hother : ∀ file ∈ files, w.resolve other ≠ w.resolve file.1) :
    (w.writeAll files).2.read other = w.read other := by
  induction files generalizing w with
  | nil => rfl
  | cons file rest ih =>
      rw [List.forall_mem_cons] at hother
      rw [writeAll]
      split
      · rename_i next hwrite
        have hplaces := (samePlaces_write? hwrite).resolve_eq
        rw [ih, read_write?_of_ne hwrite hother.1]
        simpa only [hplaces] using hother.2
      · rfl

/-- Files at different places are all read as they were written. -/
theorem read_writeAll (hwritten : (w.writeAll files).1 = none)
    (hplaces : files.Pairwise fun file next => w.resolve file.1 ≠ w.resolve next.1) :
    ∀ file ∈ files, (w.writeAll files).2.read file.1 = .text file.2 := by
  induction files generalizing w with
  | nil =>
      intro file hfile
      cases hfile
  | cons file rest ih =>
      obtain ⟨path, contents⟩ := file
      rw [List.pairwise_cons] at hplaces
      rw [writeAll] at hwritten ⊢
      cases hwrite : w.write? path contents with
      | none => simp [hwrite] at hwritten
      | some next =>
          have hsame := (samePlaces_write? hwrite).resolve_eq
          simp only [hwrite] at hwritten ⊢
          rw [List.forall_mem_cons]
          constructor
          · rw [read_writeAll_of_ne, read_write? hwrite]
            intro later hlater
            rw [hsame, hsame]
            exact hplaces.1 later hlater
          · apply ih hwritten
            simpa only [hsame] using hplaces.2

end WriteAll
end Workspace

namespace Command

/-- The text of a document is that of a snapshot without repeated identifiers. -/
theorem documentOfText_eq_ok_iff {path contents : String} {d : Document} :
    documentOfText path contents = .ok d ↔
      ∃ s, Snapshot.ofText? contents = some s ∧ Document.ofSnapshot s = .ok d := by
  rw [documentOfText]
  cases Snapshot.ofText? contents with
  | none => simp
  | some s => cases hopen : Document.ofSnapshot s <;> simp [hopen]

/-- The file of a snapshot without repeated identifiers is accepted if it nests no deeper than a
text may. -/
theorem documentOfText_fileText {s : Snapshot} (path : String)
    (hnodup : (Layer.idsOfList s.layers).Nodup) (hfits : s.toJson.nesting ≤ Json.maxNesting) :
    documentOfText path (fileText s.toJson) = .ok { s with
      selection := s.selection.filter fun id => id ∈ Layer.idsOfList s.layers
      ids_nodup := hnodup } := by
  rw [documentOfText_eq_ok_iff]
  refine ⟨s, ?_, Document.ofSnapshot_eq_ok hnodup⟩
  rw [fileText, Snapshot.ofText?_lines, if_pos hfits]

theorem run_readSource (path : String) (w : Workspace) :
    (readSource path : StateM Workspace _).run w = (w.source path, w) := by
  have hread : (FileAccess.read path : StateM Workspace _).run w = (w.read path, w) := rfl
  rw [readSource, StateT.run_bind, hread, Workspace.source]
  cases w.read path <;> rfl

theorem run_readDocument (path : String) (w : Workspace) :
    (readDocument path : StateM Workspace _).run w = (w.document path, w) := by
  rw [readDocument, StateT.run_bind, run_readSource]
  rfl

theorem run_writeAll (before : CommandResult) (files : List (String × String)) (w : Workspace) :
    (writeAll before files : StateM Workspace _).run w =
      ((w.writeAll files).1.elim (.ok ()) fun path => .error (before.failed (.unwritable path)),
        (w.writeAll files).2) := by
  induction files generalizing w with
  | nil => rfl
  | cons file rest ih =>
      obtain ⟨path, contents⟩ := file
      have hwrite : (FileAccess.write path contents : StateM Workspace Bool).run w =
          match w.write? path contents with
          | some w => (true, w)
          | none => (false, w) := by
        simp only [FileAccess.write, StateT.run_bind, StateT.run_get, pure_bind]
        cases w.write? path contents <;> rfl
      rw [writeAll, StateT.run_bind, hwrite, Workspace.writeAll]
      cases w.write? path contents with
      | none => rfl
      | some next => exact ih next

theorem run_finish (before after : CommandResult) (files : List (String × String))
    (w : Workspace) :
    w.run (finish before files after) =
      ((w.writeAll files).1.elim after fun path => before.failed (.unwritable path),
        (w.writeAll files).2) := by
  rw [Workspace.run, finish, StateT.run_bind, run_writeAll]
  cases (w.writeAll files).1 <;> rfl

/-- A command that has nothing to complain about succeeds if its file can be written. -/
theorem exitCode_finish_eq_zero_iff {before after : CommandResult} (h : after.exitCode = 0)
    (path contents : String) (w : Workspace) :
    (w.run (finish before [(path, contents)] after)).1.exitCode = 0 ↔ w.Takes path := by
  have htakes : (w.writeAll [(path, contents)]).1 = none ↔ w.Takes path := by
    rw [Workspace.writeAll_eq_none_iff, List.forall_mem_singleton]
  rw [run_finish, ← htakes]
  cases (w.writeAll [(path, contents)]).1 with
  | none => simp [h]
  | some refused => simp [CommandResult.failed]

theorem run_runExport (settings : Settings) (now : Instant) (path out : String) (w : Workspace) :
    w.run (runExport settings now path (some out)) =
      match w.document path with
      | .error e => (CommandResult.failed {} e, w)
      | .ok d => w.run (finish {} [(out, fileText (forestOf settings now d).toJson)] {}) := by
  rw [Workspace.run, runExport, StateT.run_bind, run_readDocument]
  cases w.document path <;> rfl

/-- An accepted document is exported to the file that its forest is written to. -/
theorem run_runExport_eq {settings : Settings} {now : Instant} {path out : String}
    {w w' : Workspace} {d : Document} (hdocument : w.document path = .ok d)
    (hwrite : w.write? out (fileText (forestOf settings now d).toJson) = some w') :
    w.run (runExport settings now path (some out)) = ({}, w') := by
  simp only [run_runExport, hdocument, run_finish, Workspace.writeAll, hwrite]
  rfl

theorem exitCode_runExport_eq_zero_iff {settings : Settings} {now : Instant} {path out : String}
    {w : Workspace} :
    (w.run (runExport settings now path (some out))).1.exitCode = 0 ↔
      ∃ d, w.document path = .ok d ∧ w.Takes out := by
  rw [run_runExport]
  cases w.document path with
  | error e => simp [CommandResult.failed]
  | ok d =>
      rw [exitCode_finish_eq_zero_iff rfl]
      simp

/-- What the command that generates code tells when it is done. -/
def built (path : String) (outDir : Option String) (code : GeneratedCode) : CommandResult :=
  { stderr := "Built: " ++ ((codeFiles path outDir code).map Prod.fst).headD "" ++ "\n" }

theorem run_runGenerate (path : String) (outDir : Option String) (w : Workspace) :
    w.run (runGenerate path outDir) =
      match (w.source path).bind fun contents =>
        (GeneratedCode.ofInput contents).mapError .badInput with
      | .error e => (CommandResult.failed {} e, w)
      | .ok code => w.run (finish {} (codeFiles path outDir code) (built path outDir code)) := by
  rw [Workspace.run, runGenerate, StateT.run_bind, run_readSource]
  cases w.source path with
  | error e => rfl
  | ok contents =>
      cases hcode : GeneratedCode.ofInput contents <;>
        · simp only [bind, Except.bind, hcode]
          rfl

end Command
end DesignMarkup
