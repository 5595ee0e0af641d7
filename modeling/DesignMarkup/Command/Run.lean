import DesignMarkup.Command.Arguments
import DesignMarkup.Command.Files
import DesignMarkup.Document.Encoding
import DesignMarkup.Markup.Check
import DesignMarkup.Markup.Code
import DesignMarkup.Session
import DesignMarkup.Settings.Load

/-!
Commands over files: exporting the tagged elements of a document, generating code from a forest,
tagging from layer names, and checking a forest.
-/

namespace DesignMarkup

/-- Why a command failed. -/
inductive CommandError where
  | badSettings
  | fileNotFound (path : String)
  | unreadable (path : String)
  | notSnapshot (path : String)
  | invalidTree (path : String)
  | badInput (e : MarkupError)
  | nothingSelected
  | problemsFound (count : Nat) (path : String)
  | unwritable (path : String)

def CommandError.message : CommandError → String
  | badSettings => "Failed to load settings"
  | fileNotFound path => "file not found: " ++ path
  | unreadable path => "Error reading " ++ path
  | notSnapshot path => path ++ " is not a document snapshot"
  | invalidTree path => path ++ " has an invalid element tree"
  | badInput e => e.message
  | nothingSelected => Session.noSelectionText
  | problemsFound count path =>
      String.ofList (Nat.toDigits 10 count) ++ " problem(s) in " ++ path
  | unwritable path => "Error writing " ++ path

/-- What a command line came to: its exit code and the texts that it printed. -/
structure CommandResult where
  exitCode : UInt32 := 0
  stdout : String := ""
  stderr : String := ""
deriving DecidableEq, Repr

/-- The result so far, ended by an error. -/
def CommandResult.failed (result : CommandResult) (e : CommandError) : CommandResult :=
  { result with exitCode := 1, stderr := result.stderr ++ "Error: " ++ e.message ++ "\n" }

namespace Command

variable {m : Type → Type} [Monad m] [FileAccess m]

/-- The text of a file. -/
def readSource (path : String) : m (Except CommandError String) := do
  match ← FileAccess.read path with
  | .missing => return .error (.fileNotFound path)
  | .unreadable => return .error (.unreadable path)
  | .text contents => return .ok contents

/-- The document of a snapshot's text. -/
def documentOfText (path contents : String) : Except CommandError Document :=
  match Snapshot.ofText? contents with
  | none => .error (.notSnapshot path)
  | some snapshot =>
      match Document.ofSnapshot snapshot with
      | .error _ => .error (.invalidTree path)
      | .ok d => .ok d

def readDocument (path : String) : m (Except CommandError Document) := do
  return (← readSource path).bind (documentOfText path)

/-- Write files in order until one cannot be written. -/
def writeAll (result : CommandResult) : List (String × String) → m (Except CommandResult Unit)
  | [] => return .ok ()
  | (path, contents) :: rest => do
      if ← FileAccess.write path contents then writeAll result rest
      else return .error (result.failed (.unwritable path))

/-- The result of a command after its files have been written. -/
def finish (before : CommandResult) (files : List (String × String)) (after : CommandResult) :
    m CommandResult := do
  match ← writeAll before files with
  | .ok () => return after
  | .error result => return result

/-- The text of a file that holds a JSON tree. -/
def fileText (j : Json) : String :=
  j.indented ++ "\n"

/-- The forest of the tags that are stored in a document. -/
def forestOf (settings : Settings) (now : Instant) (d : Document) : Forest :=
  (Session.start { document := d } settings).exported now

/-- Export the tagged elements of a document. -/
def runExport (settings : Settings) (now : Instant) (path : String) (out : Option String) :
    m CommandResult := do
  match ← readDocument path with
  | .error e => return ({} : CommandResult).failed e
  | .ok d =>
      let text := fileText (forestOf settings now d).toJson
      match out with
      | none => return { stdout := text }
      | some out => finish {} [(out, text)] {}

/-- A page with generated markup that refers to its style sheet, if there is one. -/
def page (stem : String) (code : GeneratedCode) : String :=
  "<!DOCTYPE html>\n<html>\n<head>\n  <meta charset=\"UTF-8\">\n"
    ++ "  <title>" ++ Markup.escape stem ++ "</title>\n"
    ++ (if code.css = "" then ""
      else "  <link rel=\"stylesheet\" href=\"" ++ Markup.escape stem ++ ".css\">\n")
    ++ "</head>\n<body>\n"
    ++ (if code.html = "" then "" else code.html ++ "\n")
    ++ "</body>\n</html>\n"

/-- The files that hold generated code: a page, and a style sheet if there is one. -/
def codeFiles (path : String) (outDir : Option String) (code : GeneratedCode) :
    List (String × String) :=
  let stem := Path.stem path
  let folder := outDir.getD (Path.parent path)
  (Path.join folder (stem ++ ".html"), page stem code) ::
    if code.css = "" then [] else [(Path.join folder (stem ++ ".css"), code.css ++ "\n")]

/-- Generate code from a forest. -/
def runGenerate (path : String) (outDir : Option String) : m CommandResult := do
  match ← readSource path with
  | .error e => return ({} : CommandResult).failed e
  | .ok contents =>
      match GeneratedCode.ofInput contents with
      | .error e => return ({} : CommandResult).failed (.badInput e)
      | .ok code =>
          let files := codeFiles path outDir code
          let built := (files.map Prod.fst).headD ""
          finish {} files { stderr := "Built: " ++ built ++ "\n" }

/-- Tag the selected elements of a document, or all, from their names. -/
def runAutoTag (settings : Settings) (path : String) (all descendants write : Bool) :
    m CommandResult := do
  match ← readDocument path with
  | .error e => return ({} : CommandResult).failed e
  | .ok d =>
      let ids := if all then d.allElements else d.selection
      if ids.isEmpty then return ({} : CommandResult).failed .nothingSelected
      else
        let (outcome, t) := (Tagging.load { document := d }).autoTag ids
          (settings.autoTag.includeDescendants || descendants)
        let result : CommandResult := { stdout := fileText outcome.toJson }
        let files :=
          if write then [(path, fileText t.host.document.snapshot.toJson)] else []
        finish result files result

/-- Check a forest for what generating code from it would leave out. -/
def runCheck (path : String) : m CommandResult := do
  match ← readSource path with
  | .error e => return ({} : CommandResult).failed e
  | .ok contents =>
      match MarkupNode.nodesOfText contents with
      | .error e => return ({} : CommandResult).failed (.badInput e)
      | .ok nodes =>
          let problems := MarkupNode.problemsOf nodes
          if problems.isEmpty then return { stderr := "OK: " ++ path ++ "\n" }
          else
            let lines := problems.map fun problem => problem.message ++ "\n"
            return ({ stderr := String.join lines } : CommandResult).failed
              (.problemsFound problems.length path)

/-- Run a command under given settings. -/
def run (settings : Settings) (now : Instant) : Command → m CommandResult
  | .exportForest path out => runExport settings now path out
  | .generate path outDir => runGenerate path outDir
  | .autoTag path all descendants write => runAutoTag settings path all descendants write
  | .check path => runCheck path

/-- The text of a settings file.  When there is no file of the given name, the name is tried with
the ending of settings files. -/
def settingsText (path : String) : m (Option String) := do
  match ← FileAccess.read path with
  | .text contents =>
      return if Path.hasEnding Settings.fileEnding path then some contents else none
  | _ =>
      match Path.addEnding? Settings.fileEnding path with
      | none => return none
      | some path =>
          match ← FileAccess.read path with
          | .text contents => return some contents
          | _ => return none

/-- The settings of an optional file and of the environment. -/
def loadSettings (config : Option String) (environment : List (String × String)) :
    m (Option Settings) := do
  match config with
  | none => return Settings.load? none environment
  | some path =>
      match ← settingsText path with
      | none => return none
      | some contents => return Settings.load? (some contents) environment

/-- The name and version that the program tells. -/
def versionText : String :=
  "semtag " ++ GeneratedCode.generatorVersion ++ "\n"

/-- Run a command line at an instant, with the given environment. -/
def runLine (now : Instant) (environment : List (String × String)) (args : List String) :
    m CommandResult := do
  match Arguments.read? args with
  | none => return { exitCode := 2 }
  | some .version => return { stdout := versionText }
  | some (.run config command) =>
      match ← loadSettings config environment with
      | none => return ({} : CommandResult).failed .badSettings
      | some settings => run settings now command

end Command
end DesignMarkup
