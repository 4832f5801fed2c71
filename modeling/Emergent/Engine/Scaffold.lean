import Emergent.Engine.Marketplace
import Emergent.Kit.Server
import Emergent.Sdk.Types

/-!
# Scaffolding a primitive (`scaffold/*.rs`)

Three actors in one process: the source turns the arguments of the command into a
request, the handler renders the files registered for it and broadcasts them one
by one, and the sink writes them in the order in which they come and reports what
became of the run. The command waits for the report for thirty seconds. The case
conversions, the template engine and the bodies of the templates are parameters, and
so is what the terminal answers to the wizard's prompts and the disk for each file;
what is printed on the way is left out.
-/

namespace Emergent.Engine.Scaffold
open Kit Kit.Text Kit.Paths
open Marketplace (Bytes WriteAnswer)
open Sdk (PrimitiveName InvalidPrimitiveName)

/-! ### Requests (`messages.rs`, `cli.rs`, `sdk.rs`) -/

inductive Language where
  | rust
  | typescript
  | python
  deriving DecidableEq

def Language.asStr : Language → String
  | .rust => "rust"
  | .typescript => "typescript"
  | .python => "python"

inductive PrimitiveType where
  | source
  | handler
  | sink
  deriving DecidableEq

def PrimitiveType.asStr : PrimitiveType → String
  | .source => "source"
  | .handler => "handler"
  | .sink => "sink"

structure TemplateContext where
  name : String
  nameSnake : String
  namePascal : String
  primitiveType : String
  subscribes : List String
  publishes : List String
  description : String
  sdkRequirement : String

/-- What the command relies on: `str::to_lowercase`, the conversions of `heck`, the
texts of `PrimitiveName`'s errors, and the template engine, whose errors are texts. -/
structure Tools where
  toLowercase : String → String
  toSnakeCase : String → String
  toUpperCamelCase : String → String
  nameError : InvalidPrimitiveName → String
  render : String → TemplateContext → Except String String
  sdkVersion : String

variable (tools : Tools)

def Language.fromStr (s : String) : Except String Language :=
  let word := tools.toLowercase s
  if word = "rust" ∨ word = "rs" then .ok .rust
  else if word = "typescript" ∨ word = "ts" then .ok .typescript
  else if word = "python" ∨ word = "py" then .ok .python
  else .error ("Unknown language: " ++ s ++ ". Valid options: rust, typescript, python")

def PrimitiveType.fromStr (s : String) : Except String PrimitiveType :=
  let word := tools.toLowercase s
  if word = "source" then .ok .source
  else if word = "handler" then .ok .handler
  else if word = "sink" then .ok .sink
  else .error ("Unknown primitive type: " ++ s ++ ". Valid options: source, handler, sink")

structure ScaffoldArgs where
  language : Option String
  primitiveType : Option String
  name : Option String
  subscribes : Option String
  publishes : Option String
  output : Option String
  description : Option String
  dryRun : Bool
  json : Bool

structure ScaffoldRequest where
  language : Language
  name : String
  primitiveType : PrimitiveType
  subscribes : List String
  publishes : List String
  description : String
  outputDir : String
  dryRun : Bool
  jsonOutput : Bool

def parseCommaList (s : String) : List String :=
  ((s.toList.splitOn ',').map fun piece => trim (String.ofList piece)).filter fun piece =>
    piece ≠ ""

def validateName (name : String) : Except String Unit :=
  if name = "" then .error "Name cannot be empty"
  else if tools.toSnakeCase name ≠ name then
    .error ("Name should be snake_case: suggested '" ++ tools.toSnakeCase name ++ "'")
  else if ¬ name.toList.all (fun c => c.isAlphanum || c = '_') then
    .error "Name can only contain alphanumeric characters and underscores"
  else if name.toList.head?.any Char.isDigit then .error "Name cannot start with a number"
  else
    match PrimitiveName.new name with
    | .ok _ => .ok ()
    | .error e => .error (tools.nameError e)

/-- Input that is refused, or a failure of the prompts. -/
inductive ScaffoldError where
  | cancelled
  | invalidInput (message : String)
  | prompt (text : String)
  deriving DecidableEq

def ScaffoldError.text : ScaffoldError → String
  | .cancelled => "Operation cancelled by user"
  | .invalidInput message => "Invalid input: " ++ message
  | .prompt text => text

def buildFromArgs (args : ScaffoldArgs) : Except ScaffoldError ScaffoldRequest := do
  let language ← ((args.language.map (Language.fromStr tools)).getD (.ok .rust)).mapError
    .invalidInput
  let primitiveType ← args.primitiveType.elim (.error (.invalidInput "--type is required")) .ok
  let primitiveType ← (PrimitiveType.fromStr tools primitiveType).mapError .invalidInput
  let name ← args.name.elim (.error (.invalidInput "--name is required")) .ok
  (validateName tools name).mapError .invalidInput
  .ok {
    language
    name
    primitiveType
    subscribes := (args.subscribes.map parseCommaList).getD []
    publishes := (args.publishes.map parseCommaList).getD []
    description := args.description.getD ("A " ++ primitiveType.asStr ++ " primitive")
    outputDir := args.output.getD ("./" ++ name)
    dryRun := args.dryRun
    jsonOutput := args.json
  }

/-- The terminal (`dialoguer`): the number of the item that is selected, and the text
that is typed or the default taken, under a validator. Either may fail. -/
structure Prompts where
  interact : String → List String → Except String ℕ
  interactText : String → String → (String → Except String Unit) → Except String String

section
variable (prompts : Prompts)

def promptError (message : String) : ScaffoldError := .prompt ("Prompt error: " ++ message)

def select (prompt : String) (items : List String) : Except ScaffoldError ℕ :=
  (prompts.interact prompt items).mapError promptError

/-- What was given on the command line is not asked for. -/
def input (given : Option String) (prompt default : String) : Except ScaffoldError String :=
  given.elim ((prompts.interactText prompt default fun _ => .ok ()).mapError promptError) .ok

def wizardLanguage (args : ScaffoldArgs) : Except ScaffoldError Language :=
  match args.language with
  | some text => (Language.fromStr tools text).mapError .invalidInput
  | none => do
    match ← select prompts "Select language" ["Rust", "TypeScript (Deno)", "Python"] with
    | 1 => .ok .typescript
    | 2 => .ok .python
    | _ => .ok .rust

def wizardType (args : ScaffoldArgs) : Except ScaffoldError PrimitiveType :=
  match args.primitiveType with
  | some text => (PrimitiveType.fromStr tools text).mapError .invalidInput
  | none => do
    match ← select prompts "Select primitive type"
      ["Source (emits events)", "Handler (transforms events)", "Sink (consumes events)"] with
    | 1 => .ok .handler
    | 2 => .ok .sink
    | _ => .ok .source

def wizardName (args : ScaffoldArgs) (primitiveType : PrimitiveType) :
    Except ScaffoldError String :=
  match args.name with
  | some name => do
    (validateName tools name).mapError .invalidInput
    .ok name
  | none =>
    (prompts.interactText "Primitive name (snake_case)" ("my_" ++ primitiveType.asStr)
      (validateName tools)).mapError promptError

def PrimitiveType.purpose : PrimitiveType → String
  | .source => "emits events"
  | .handler => "transforms events"
  | .sink => "consumes events"

/-- A source subscribes to nothing and a sink publishes nothing, whatever is given. -/
def wizardTopics (takes : Bool) (given : Option String) (prompt default : String) :
    Except ScaffoldError (List String) :=
  if takes then (input prompts given prompt default).map parseCommaList else .ok []

/-- The wizard asks for what the command line leaves open. -/
def runWizard (args : ScaffoldArgs) : Except ScaffoldError ScaffoldRequest := do
  let language ← wizardLanguage tools prompts args
  let primitiveType ← wizardType tools prompts args
  let name ← wizardName tools prompts args primitiveType
  let description ← input prompts args.description "Description"
    ("A " ++ primitiveType.asStr ++ " that " ++ primitiveType.purpose)
  let subscribes ← wizardTopics prompts (primitiveType ≠ .source) args.subscribes
    "Message types to subscribe (comma-separated)" "timer.tick"
  let publishes ← wizardTopics prompts (primitiveType ≠ .sink) args.publishes
    "Message types to publish (comma-separated)" (name ++ ".output")
  let outputDir ← input prompts args.output "Output directory" ("./" ++ name)
  .ok {
    language
    name
    primitiveType
    subscribes
    publishes
    description
    outputDir
    dryRun := args.dryRun
    jsonOutput := args.json
  }

end

/-- The `MAJOR.MINOR` of a plain release. -/
def releaseMajorMinor (version : String) : Option String :=
  let numeric := fun part : List Char => part ≠ [] ∧ part.all Char.isDigit
  match version.toList.splitOn '.' with
  | [major, minor, patch] =>
    if numeric major ∧ numeric minor ∧ numeric patch then
      some (String.ofList major ++ "." ++ String.ofList minor)
    else none
  | _ => none

def cargoRequirement (version : String) : String := (releaseMajorMinor version).getD version

def pythonRequirement (version : String) : String :=
  if (releaseMajorMinor version).isSome then "~=" ++ version else "==" ++ version

def jsrRequirement (version : String) : String :=
  if (releaseMajorMinor version).isSome then "^" ++ version else version

def sdkRequirement (language : Language) (version : String) : String :=
  match language with
  | .rust => cargoRequirement version
  | .python => pythonRequirement version
  | .typescript => jsrRequirement version

def buildTemplateContext (request : ScaffoldRequest) : TemplateContext where
  name := request.name
  nameSnake := tools.toSnakeCase request.name
  namePascal := tools.toUpperCamelCase request.name
  primitiveType := request.primitiveType.asStr
  subscribes := request.subscribes
  publishes := request.publishes
  description := request.description
  sdkRequirement := sdkRequirement request.language tools.sdkVersion

/-! ### Templates (`templates.rs`, `handler.rs`) -/

structure TemplateKey where
  language : Language
  primitiveType : PrimitiveType
  filename : String
  deriving DecidableEq

/-- The files of each language; those of its three types of primitive are named alike. -/
def filesFor (language : Language) (_ : PrimitiveType) : List String :=
  match language with
  | .rust => ["Cargo.toml", "src/main.rs"]
  | .typescript => ["deno.json", "main.ts"]
  | .python => ["pyproject.toml", "main.py"]

structure TemplateRegistry where
  templates : List (TemplateKey × String)
  filesByType : List ((Language × PrimitiveType) × List String)

def kinds : List (Language × PrimitiveType) :=
  [.rust, .typescript, .python].flatMap fun language =>
    [.source, .handler, .sink].map fun primitiveType => (language, primitiveType)

namespace TemplateRegistry

/-- `TemplateRegistry::new`, with the bodies of the embedded templates. -/
def new (body : TemplateKey → String) : TemplateRegistry where
  templates := kinds.flatMap fun kind =>
    (Scaffold.filesFor kind.1 kind.2).map fun filename =>
      (⟨kind.1, kind.2, filename⟩, body ⟨kind.1, kind.2, filename⟩)
  filesByType := kinds.map fun kind => (kind, Scaffold.filesFor kind.1 kind.2)

def get (registry : TemplateRegistry) (language : Language) (primitiveType : PrimitiveType)
    (filename : String) : Option String :=
  registry.templates.lookup ⟨language, primitiveType, filename⟩

def filesFor (registry : TemplateRegistry) (language : Language) (primitiveType : PrimitiveType) :
    List String :=
  (registry.filesByType.lookup (language, primitiveType)).getD []

end TemplateRegistry

structure TemplateFailure where
  file : String
  reason : String
  deriving DecidableEq

def TemplateFailure.text (failure : TemplateFailure) : String :=
  failure.file ++ " (" ++ failure.reason ++ ")"

structure TemplateRendered where
  filePath : String
  content : String
  fileIndex : ℕ
  totalFiles : ℕ

structure TemplateRenderedMessage where
  rendered : TemplateRendered
  dryRun : Bool
  jsonOutput : Bool
  outputDir : String

structure AllTemplatesRendered where
  totalFiles : ℕ
  dryRun : Bool
  jsonOutput : Bool
  outputDir : String
  files : List String
  failures : List TemplateFailure
  language : Language
  name : String
  primitiveType : PrimitiveType
  subscribes : List String
  publishes : List String

/-- What the handler broadcasts. -/
inductive Message where
  | templateRendered (message : TemplateRenderedMessage)
  | allTemplatesRendered (message : AllTemplatesRendered)

section
variable (registry : TemplateRegistry) (request : ScaffoldRequest)

def renderFile (filename : String) : Except TemplateFailure String :=
  match registry.get request.language request.primitiveType filename with
  | none => .error ⟨filename, "template not found"⟩
  | some body => (tools.render body (buildTemplateContext tools request)).mapError
      (TemplateFailure.mk filename)

/-- What the handler has sent, and the two lists it keeps on the way. -/
structure Rendering where
  sent : List TemplateRenderedMessage
  renderedFiles : List String
  failures : List TemplateFailure

def Rendering.next (totalFiles : ℕ) (r : Rendering) (entry : String × ℕ) : Rendering :=
  match renderFile tools registry request entry.1 with
  | .error failure => { r with failures := r.failures ++ [failure] }
  | .ok content =>
    { r with
      sent := r.sent ++
        [⟨⟨entry.1, content, entry.2, totalFiles⟩, request.dryRun, request.jsonOutput,
          request.outputDir⟩]
      renderedFiles := r.renderedFiles ++ [entry.1] }

/-- Nothing registered is a failure of its own. -/
def Rendering.start (files : List String) : Rendering where
  sent := []
  renderedFiles := []
  failures :=
    if files = [] then
      [⟨request.language.asStr ++ " " ++ request.primitiveType.asStr,
        "no templates are registered for this language and primitive type"⟩]
    else []

def renderAll : Rendering :=
  let files := registry.filesFor request.language request.primitiveType
  files.zipIdx.foldl (Rendering.next tools registry request files.length)
    (Rendering.start request files)

/-- The handler of `ScaffoldRequestMessage`, as the messages it broadcasts. -/
def handle : List Message :=
  let all := renderAll tools registry request
  all.sent.map .templateRendered ++ [.allTemplatesRendered {
    totalFiles := (registry.filesFor request.language request.primitiveType).length
    dryRun := request.dryRun
    jsonOutput := request.jsonOutput
    outputDir := request.outputDir
    files := all.renderedFiles
    failures := all.failures
    language := request.language
    name := request.name
    primitiveType := request.primitiveType
    subscribes := request.subscribes
    publishes := request.publishes
  }]

end

/-! ### Files (`outcome.rs`, `sink.rs`) -/

/-- The text of `Path::join` for a file that is no absolute path. -/
def joinText (dir file : String) : String :=
  if dir = "" then file
  else if dir.toList.getLast? = some '/' then dir ++ file
  else dir ++ "/" ++ file

/-- The text of `Path::parent`: the last component goes, and with it the empty and
`.` components before it. -/
def parentText (path : String) : String :=
  match (path.toList.splitOn '/').dropLast with
  | [] => ""
  | first :: rest =>
    let kept := first :: rest.rdropWhile fun piece => piece = [] ∨ piece = ['.']
    if kept = [[]] then "/" else String.ofList (['/'].intercalate kept)

/-- Whether a run produced what it was asked for. -/
def scaffoldError (expected : ℕ) (written : List String) (failures : List TemplateFailure) :
    Option String :=
  if failures ≠ [] then
    some ("scaffold failed for " ++ toString failures.length ++ " of " ++ toString expected ++
      " file(s): " ++ ", ".intercalate (failures.map TemplateFailure.text))
  else if written.length < expected then
    some ("scaffold wrote " ++ toString written.length ++ " of " ++ toString expected ++
      " file(s)")
  else none

/-- What the disk answers for one file: an error text of `create_dir_all`, and the
write with its error text. -/
structure DiskAnswer where
  dirError : Option String
  written : WriteAnswer
  writeError : String

structure ScaffoldComplete where
  filesWritten : List String
  outputDir : String
  success : Bool
  error : Option String
  dryRun : Bool

abbrev Files := PathBuf → Option Bytes

/-- The state of the sink, with the disk it writes to and its report. -/
structure FileWriter where
  filesWritten : List String
  writeFailures : List TemplateFailure
  disk : Files
  report : Option ScaffoldComplete

section
variable (cwd : PathBuf) (answers : String → DiskAnswer)

def place (outputDir file : String) : PathBuf := resolve (join (join cwd outputDir) file)

namespace FileWriter

def recordFailure (file reason : String) (w : FileWriter) : FileWriter :=
  { w with writeFailures := w.writeFailures ++ [⟨file, reason⟩] }

def put (at' : PathBuf) (content : Bytes) (w : FileWriter) : FileWriter :=
  { w with disk := fun p => if p = at' then some content else w.disk p }

def writeRendered (w : FileWriter) (m : TemplateRenderedMessage) : FileWriter :=
  let file := m.rendered.filePath
  let fullPath := joinText m.outputDir file
  let answer := answers file
  let tracked := fun w : FileWriter => { w with filesWritten := w.filesWritten ++ [file] }
  if m.dryRun then tracked w
  else
    match answer.dirError, answer.written with
    | some e, _ =>
      w.recordFailure file ("failed to create directory " ++ parentText fullPath ++ ": " ++ e)
    | none, .done => tracked (w.put (place cwd m.outputDir file) m.rendered.content.toUTF8)
    | none, .refused =>
      w.recordFailure file ("failed to write " ++ fullPath ++ ": " ++ answer.writeError)
    | none, .torn part =>
      (w.put (place cwd m.outputDir file) part).recordFailure file
        ("failed to write " ++ fullPath ++ ": " ++ answer.writeError)

/-- The failures recorded on the way are taken, not copied. -/
def complete (w : FileWriter) (m : AllTemplatesRendered) : FileWriter :=
  let error := scaffoldError m.totalFiles m.files (m.failures ++ w.writeFailures)
  { w with
    writeFailures := []
    report := some ⟨m.files, m.outputDir, error.isNone, error, m.dryRun⟩ }

def take (w : FileWriter) : Message → FileWriter
  | .templateRendered m => w.writeRendered cwd answers m
  | .allTemplatesRendered m => w.complete m

end FileWriter

/-! ### The run of the command (`source.rs`, `mod.rs`) -/

structure ScaffoldAborted where
  reason : String
  cancelled : Bool

def hasRequiredArgs (args : ScaffoldArgs) : Bool := args.primitiveType.isSome && args.name.isSome

/-- The request, or why there is none. -/
def collect (prompts : Prompts) (args : ScaffoldArgs) : Except ScaffoldError ScaffoldRequest :=
  if hasRequiredArgs args then buildFromArgs tools args else runWizard tools prompts args

def aborted : ScaffoldError → ScaffoldAborted
  | .cancelled => ⟨"scaffold cancelled", true⟩
  | e => ⟨e.text, false⟩

/-- Messages the handler has yet to send, the inbox of the sink, and what the
completion actor may hear. -/
structure Workflow where
  toSend : List Message
  inbox : List Message
  sink : FileWriter
  abort : Option ScaffoldAborted
  outcome : Option (Except String Unit)

inductive Turn where
  | handler
  | sink
  | completion
  | timeout
  deriving DecidableEq

namespace Workflow

def timedOut : String := "the scaffold workflow timed out after 30 seconds"

def start (registry : TemplateRegistry) (collected : Except ScaffoldError ScaffoldRequest)
    (disk : Files) : Workflow :=
  match collected with
  | .ok request => ⟨handle tools registry request, [], ⟨[], [], disk, none⟩, none, none⟩
  | .error e => ⟨[], [], ⟨[], [], disk, none⟩, some (aborted e), none⟩

/-- What the completion actor makes of what it hears. -/
def heard (s : Workflow) : Option (Except String Unit) :=
  match s.sink.report, s.abort with
  | some report, _ => some (report.error.elim (.ok ()) .error)
  | none, some abort => some (if abort.cancelled then .ok () else .error abort.reason)
  | none, none => none

/-- The first outcome stands; the actors may go on until they are stopped. -/
def step (s : Workflow) : Turn → Option Workflow
  | .handler =>
    match s.toSend with
    | [] => none
    | m :: rest => some { s with toSend := rest, inbox := s.inbox ++ [m] }
  | .sink =>
    match s.inbox with
    | [] => none
    | m :: rest => some { s with inbox := rest, sink := s.sink.take cwd answers m }
  | .completion =>
    match s.heard, s.outcome with
    | some outcome, none => some { s with outcome := some outcome }
    | _, _ => none
  | .timeout =>
    match s.outcome with
    | none => some { s with outcome := some (.error timedOut) }
    | some _ => none

end Workflow

end

/-! ### What is rendered and what fails -/

section
variable (tools : Tools) (registry : TemplateRegistry) (request : ScaffoldRequest)

def renderedMessage (total : ℕ) (entry : String × ℕ) : Option TemplateRenderedMessage :=
  match renderFile tools registry request entry.1 with
  | .ok content => some ⟨⟨entry.1, content, entry.2, total⟩, request.dryRun, request.jsonOutput,
      request.outputDir⟩
  | .error _ => none

def renderFailure (entry : String × ℕ) : Option TemplateFailure :=
  match renderFile tools registry request entry.1 with
  | .ok _ => none
  | .error failure => some failure

end

section
variable {tools : Tools} {registry : TemplateRegistry} {request : ScaffoldRequest}

section
variable {total : ℕ} {entry : String × ℕ} {content : String} {failure : TemplateFailure}

theorem renderedMessage_ok (h : renderFile tools registry request entry.1 = .ok content) :
    renderedMessage tools registry request total entry =
      some ⟨⟨entry.1, content, entry.2, total⟩, request.dryRun, request.jsonOutput,
        request.outputDir⟩ := by
  simp only [renderedMessage, h]

theorem renderedMessage_error (h : renderFile tools registry request entry.1 = .error failure) :
    renderedMessage tools registry request total entry = none := by
  simp only [renderedMessage, h]

theorem renderFailure_ok (h : renderFile tools registry request entry.1 = .ok content) :
    renderFailure tools registry request entry = none := by
  simp only [renderFailure, h]

theorem renderFailure_error (h : renderFile tools registry request entry.1 = .error failure) :
    renderFailure tools registry request entry = some failure := by
  simp only [renderFailure, h]

end

theorem foldl_next (total : ℕ) (entries : List (String × ℕ)) (r : Rendering) :
    entries.foldl (Rendering.next tools registry request total) r =
      { sent := r.sent ++ entries.filterMap (renderedMessage tools registry request total)
        renderedFiles := r.renderedFiles ++
          (entries.filterMap (renderedMessage tools registry request total)).map
            fun m => m.rendered.filePath
        failures := r.failures ++ entries.filterMap (renderFailure tools registry request) } := by
  induction entries generalizing r with
  | nil => simp
  | cons entry entries ih =>
    rw [List.foldl_cons, ih, Rendering.next]
    cases hrender : renderFile tools registry request entry.1 with
    | ok content => simp [renderedMessage_ok hrender, renderFailure_ok hrender]
    | error failure => simp [renderedMessage_error hrender, renderFailure_error hrender]

theorem renderFile_error_file {filename : String} {failure : TemplateFailure}
    (h : renderFile tools registry request filename = .error failure) :
    failure.file = filename := by
  rw [renderFile] at h
  cases hbody : registry.get request.language request.primitiveType filename with
  | none =>
    rw [hbody] at h
    rw [← Except.error.inj h]
  | some body =>
    rw [hbody] at h
    simp only at h
    cases hrender : tools.render body (buildTemplateContext tools request) with
    | ok content =>
      rw [hrender] at h
      cases h
    | error e =>
      rw [hrender] at h
      rw [← Except.error.inj h]

end

/-! ### What one message and what all of them do to the disk -/

section
variable {cwd : PathBuf} {answers : String → DiskAnswer} {w : FileWriter}
  {m : TemplateRenderedMessage} {ms : List TemplateRenderedMessage}

def DiskAnswer.Complete (answer : DiskAnswer) : Prop :=
  answer.dirError = none ∧ answer.written = .done

/-- Whether the sink fails on the message: not in a dry run. -/
def Unwritten (answers : String → DiskAnswer) (m : TemplateRenderedMessage) : Prop :=
  m.dryRun = false ∧ ¬ (answers m.rendered.filePath).Complete

/-- A file fails by one recorded failure, or the disk holds it; other places and
the report stay as they are. -/
theorem writeRendered_spec (cwd : PathBuf) (answers : String → DiskAnswer) (w : FileWriter)
    (m : TemplateRenderedMessage) :
    (w.writeRendered cwd answers m).report = w.report ∧
    (∀ p, (m.dryRun = true ∨ p ≠ place cwd m.outputDir m.rendered.filePath) →
      (w.writeRendered cwd answers m).disk p = w.disk p) ∧
    ((Unwritten answers m ∧ ∃ failure, failure.file = m.rendered.filePath ∧
        (w.writeRendered cwd answers m).writeFailures = w.writeFailures ++ [failure]) ∨
      (¬ Unwritten answers m ∧
        (w.writeRendered cwd answers m).writeFailures = w.writeFailures ∧
        (m.dryRun = false → (w.writeRendered cwd answers m).disk
          (place cwd m.outputDir m.rendered.filePath) = some m.rendered.content.toUTF8))) := by
  rw [FileWriter.writeRendered]
  cases hdry : m.dryRun with
  | true =>
    refine ⟨rfl, fun _ _ => rfl, Or.inr ⟨?_, rfl, fun h => absurd h.symm Bool.false_ne_true⟩⟩
    exact fun h => Bool.false_ne_true (h.1.symm.trans hdry)
  | false =>
    simp only [Bool.false_eq_true, if_false]
    cases hdir : (answers m.rendered.filePath).dirError with
    | some e =>
      refine ⟨rfl, fun _ _ => rfl, Or.inl ⟨⟨hdry, ?_⟩, _, rfl, rfl⟩⟩
      exact fun h => by cases hdir.symm.trans h.1
    | none =>
      cases hwritten : (answers m.rendered.filePath).written with
      | done =>
        refine ⟨rfl, fun p hp => if_neg (hp.resolve_left id), Or.inr
          ⟨fun h => h.2 ⟨hdir, hwritten⟩, rfl, fun _ => if_pos rfl⟩⟩
      | refused =>
        refine ⟨rfl, fun _ _ => rfl, Or.inl ⟨⟨hdry, ?_⟩, _, rfl, rfl⟩⟩
        exact fun h => by cases hwritten.symm.trans h.2
      | torn part =>
        refine ⟨rfl, fun p hp => if_neg (hp.resolve_left id), Or.inl
          ⟨⟨hdry, ?_⟩, _, rfl, rfl⟩⟩
        exact fun h => by cases hwritten.symm.trans h.2

def placeOf (cwd : PathBuf) (m : TemplateRenderedMessage) : PathBuf :=
  place cwd m.outputDir m.rendered.filePath

/-- The sink after the rendered files alone. -/
def written (cwd : PathBuf) (answers : String → DiskAnswer) (w : FileWriter)
    (ms : List TemplateRenderedMessage) : FileWriter :=
  (ms.map Message.templateRendered).foldl (FileWriter.take cwd answers) w

theorem written_cons (cwd : PathBuf) (answers : String → DiskAnswer) (w : FileWriter)
    (m : TemplateRenderedMessage) (ms : List TemplateRenderedMessage) :
    written cwd answers w (m :: ms) = written cwd answers (w.writeRendered cwd answers m) ms := rfl

theorem written_report : (written cwd answers w ms).report = w.report := by
  induction ms generalizing w with
  | nil => rfl
  | cons m ms ih => rw [written_cons, ih, (writeRendered_spec cwd answers w m).1]

theorem written_elsewhere {p : PathBuf} (h : ∀ m ∈ ms, m.dryRun = true ∨ p ≠ placeOf cwd m) :
    (written cwd answers w ms).disk p = w.disk p := by
  induction ms generalizing w with
  | nil => rfl
  | cons m ms ih =>
    rw [written_cons, ih fun m' hm' => h m' (List.mem_cons_of_mem _ hm')]
    exact (writeRendered_spec cwd answers w m).2.1 p (h m List.mem_cons_self)

theorem written_there (hplaces : (ms.map (placeOf cwd)).Nodup) (hm : m ∈ ms)
    (hgood : ¬ Unwritten answers m) (hdry : m.dryRun = false) :
    (written cwd answers w ms).disk (placeOf cwd m) = some m.rendered.content.toUTF8 := by
  induction ms generalizing w with
  | nil => cases hm
  | cons m' ms ih =>
    rw [List.map_cons, List.nodup_cons] at hplaces
    rw [written_cons]
    rcases List.mem_cons.mp hm with heq | hrest
    · -- the files after this one go to other places
      rw [written_elsewhere fun m'' hm'' => Or.inr fun hsame =>
        hplaces.1 (List.mem_map.mpr ⟨m'', hm'', by rw [← hsame, heq]⟩)]
      rw [← heq]
      rcases (writeRendered_spec cwd answers w m).2.2 with hbad | hok
      · exact absurd hbad.1 hgood
      · exact hok.2.2 hdry
    · exact ih hplaces.2 hrest

theorem written_failures (cwd : PathBuf) (answers : String → DiskAnswer) (w : FileWriter)
    (ms : List TemplateRenderedMessage) :
    ∃ failures, (written cwd answers w ms).writeFailures = w.writeFailures ++ failures ∧
      (∀ m ∈ ms, Unwritten answers m →
        ∃ failure ∈ failures, failure.file = m.rendered.filePath) ∧
      (failures ≠ [] → ∃ m ∈ ms, Unwritten answers m) := by
  induction ms generalizing w with
  | nil => exact ⟨[], (List.append_nil _).symm, by simp, fun h => absurd rfl h⟩
  | cons m ms ih =>
    rw [written_cons]
    obtain ⟨failures, hlist, hnamed, hsome⟩ := ih (w.writeRendered cwd answers m)
    rcases (writeRendered_spec cwd answers w m).2.2 with
      ⟨hbad, failure, hfile, hone⟩ | ⟨hgood, hnone, _⟩
    · refine ⟨failure :: failures, by rw [hlist, hone]; simp, ?_,
        fun _ => ⟨m, List.mem_cons_self, hbad⟩⟩
      intro m' hm' hbad'
      rcases List.mem_cons.mp hm' with heq | hrest
      · exact ⟨failure, List.mem_cons_self, by rw [hfile, heq]⟩
      · obtain ⟨f, hf, hname⟩ := hnamed m' hrest hbad'
        exact ⟨f, List.mem_cons_of_mem _ hf, hname⟩
    · refine ⟨failures, by rw [hlist, hnone], ?_, fun h => ?_⟩
      · intro m' hm' hbad'
        rcases List.mem_cons.mp hm' with heq | hrest
        · exact absurd (heq ▸ hbad') hgood
        · exact hnamed m' hrest hbad'
      · obtain ⟨m', hm', hbad'⟩ := hsome h
        exact ⟨m', List.mem_cons_of_mem _ hm', hbad'⟩

end

/-! ### The message of a failed run -/

theorem infix_intercalate {α : Type} {x : List α} {sep : List α} {l : List (List α)} (h : x ∈ l) :
    x <:+: sep.intercalate l := by
  induction l with
  | nil => cases h
  | cons y l ih =>
    cases l with
    | nil =>
      rw [List.intercalate_singleton, List.mem_singleton.mp h]
    | cons z l =>
      rw [List.intercalate_cons_cons]
      rcases List.mem_cons.mp h with heq | hrest
      · rw [heq, List.append_assoc]
        exact (List.prefix_append _ _).isInfix
      · exact (ih hrest).trans (List.suffix_append _ _).isInfix

/-- The text names every file that failed. -/
theorem scaffoldError_names (expected : ℕ) (files : List String) {failures : List TemplateFailure}
    {failure : TemplateFailure} (h : failure ∈ failures) :
    ∃ reason, scaffoldError expected files failures = some reason ∧
      failure.file.toList <:+: reason.toList := by
  have hne : failures ≠ [] := List.ne_nil_of_mem h
  refine ⟨_, if_pos hne, ?_⟩
  have hname : failure.file.toList <:+: failure.text.toList := by
    rw [TemplateFailure.text]
    simp only [String.toList_append, List.append_assoc]
    exact (List.prefix_append _ _).isInfix
  have hlisted : failure.text.toList <:+:
      (", ".intercalate (failures.map TemplateFailure.text)).toList := by
    rw [String.toList_intercalate]
    exact infix_intercalate (List.mem_map_of_mem (List.mem_map_of_mem h))
  rw [String.toList_append]
  exact hname.trans (hlisted.trans (List.suffix_append _ _).isInfix)

theorem scaffoldError_eq_none {expected : ℕ} {files : List String}
    {failures : List TemplateFailure} :
    scaffoldError expected files failures = none ↔ failures = [] ∧ expected ≤ files.length := by
  rw [scaffoldError]
  by_cases hnone : failures = []
  · simp [hnone]
  · simp [hnone]

/-! ### The registered files -/

section
variable {body : TemplateKey → String}

theorem filesFor_new (body : TemplateKey → String) (language : Language)
    (primitiveType : PrimitiveType) :
    (TemplateRegistry.new body).filesFor language primitiveType =
      filesFor language primitiveType := by
  cases language <;> cases primitiveType <;> rfl

/-- Every file that is listed has a template. -/
theorem get_new (body : TemplateKey → String) {language : Language}
    {primitiveType : PrimitiveType} {file : String} (h : file ∈ filesFor language primitiveType) :
    (TemplateRegistry.new body).get language primitiveType file =
      some (body ⟨language, primitiveType, file⟩) := by
  cases language <;> rcases List.mem_cons.mp h with rfl | h <;>
    first
    | (cases primitiveType <;> rfl)
    | (rw [List.mem_singleton.mp h]; cases primitiveType <;> rfl)

theorem place_of_listed (cwd : PathBuf) (outputDir : String) {language : Language}
    {primitiveType : PrimitiveType} {file : String} (h : file ∈ filesFor language primitiveType) :
    place cwd outputDir file = resolve (join cwd outputDir) ++ pieces file := by
  have hplain : ∀ file ∈ filesFor language primitiveType,
      startsWith file "/" = false ∧ ".." ∉ pieces file := by
    cases language <;> cases primitiveType <;> decide
  obtain ⟨hstart, hnames⟩ := hplain file h
  rw [place, join, hstart, if_neg Bool.false_ne_true, resolve_append_names hnames]

theorem nodup_places (cwd : PathBuf) (outputDir : String) (language : Language)
    (primitiveType : PrimitiveType) :
    ((filesFor language primitiveType).map (place cwd outputDir)).Nodup := by
  have hpieces : ((filesFor language primitiveType).map pieces).Nodup := by
    cases language <;> cases primitiveType <;> decide
  have hmap : (filesFor language primitiveType).map (place cwd outputDir) =
      ((filesFor language primitiveType).map pieces).map (resolve (join cwd outputDir) ++ ·) := by
    rw [List.map_map]
    exact List.map_congr_left fun file hfile => place_of_listed cwd outputDir hfile
  rw [hmap]
  exact hpieces.map fun _ _ h => List.append_cancel_left h

end

/-! ### The whole run -/

section
variable {tools : Tools} {body : TemplateKey → String} {request : ScaffoldRequest} {cwd : PathBuf}
  {answers : String → DiskAnswer}

def ScaffoldRequest.files (request : ScaffoldRequest) : List String :=
  filesFor request.language request.primitiveType

/-- The run cannot produce the file: it does not render, or the disk refuses it. -/
def Fails (tools : Tools) (body : TemplateKey → String) (answers : String → DiskAnswer)
    (request : ScaffoldRequest) (file : String) : Prop :=
  (∃ failure, renderFile tools (.new body) request file = .error failure) ∨
    request.dryRun = false ∧ ¬ (answers file).Complete

def messages (tools : Tools) (body : TemplateKey → String) (request : ScaffoldRequest) :
    List TemplateRenderedMessage :=
  request.files.zipIdx.filterMap
    (renderedMessage tools (.new body) request request.files.length)

def renderFailures (tools : Tools) (body : TemplateKey → String) (request : ScaffoldRequest) :
    List TemplateFailure :=
  request.files.zipIdx.filterMap (renderFailure tools (.new body) request)

theorem renderAll_eq : renderAll tools (.new body) request =
    ⟨messages tools body request, (messages tools body request).map fun m => m.rendered.filePath,
      renderFailures tools body request⟩ := by
  have hfiles : filesFor request.language request.primitiveType ≠ [] := by
    cases request.language <;> exact List.cons_ne_nil _ _
  rw [renderAll, filesFor_new, foldl_next]
  simp only [Rendering.start, if_neg hfiles, List.nil_append]
  rfl

theorem mem_messages {m : TemplateRenderedMessage} :
    m ∈ messages tools body request ↔ ∃ content i, (m.rendered.filePath, i) ∈ request.files.zipIdx ∧
      renderFile tools (.new body) request m.rendered.filePath = .ok content ∧
      m = ⟨⟨m.rendered.filePath, content, i, request.files.length⟩, request.dryRun,
        request.jsonOutput, request.outputDir⟩ := by
  rw [messages, List.mem_filterMap]
  constructor
  · rintro ⟨⟨file, i⟩, hentry, hm⟩
    cases hrender : renderFile tools (.new body) request file with
    | error failure =>
      rw [renderedMessage_error hrender] at hm
      cases hm
    | ok content =>
      rw [renderedMessage_ok hrender] at hm
      rw [← Option.some.inj hm]
      exact ⟨content, i, hentry, hrender, rfl⟩
  · rintro ⟨content, i, hentry, hrender, hm⟩
    refine ⟨_, hentry, ?_⟩
    rw [renderedMessage_ok hrender]
    exact congrArg some hm.symm

theorem messages_add_failures (tools : Tools) (body : TemplateKey → String)
    (request : ScaffoldRequest) (total : ℕ) (entries : List (String × ℕ)) :
    (entries.filterMap (renderedMessage tools (.new body) request total)).length +
      (entries.filterMap (renderFailure tools (.new body) request)).length = entries.length := by
  induction entries with
  | nil => rfl
  | cons entry entries ih =>
    cases hrender : renderFile tools (.new body) request entry.1 with
    | ok content =>
      simp only [List.filterMap_cons, renderedMessage_ok hrender, renderFailure_ok hrender,
        List.length_cons]
      omega
    | error failure =>
      simp only [List.filterMap_cons, renderedMessage_error hrender, renderFailure_error hrender,
        List.length_cons]
      omega

theorem nodup_messages (cwd : PathBuf) :
    ((messages tools body request).map (placeOf cwd)).Nodup := by
  have hsub : ∀ entries : List (String × ℕ), List.Sublist
      ((entries.filterMap (renderedMessage tools (.new body) request request.files.length)).map
        (placeOf cwd))
      ((entries.map Prod.fst).map (place cwd request.outputDir)) := by
    intro entries
    induction entries with
    | nil => exact List.Sublist.slnil
    | cons entry entries ih =>
      cases hrender : renderFile tools (.new body) request entry.1 with
      | ok content =>
        simp only [List.filterMap_cons, renderedMessage_ok hrender, List.map_cons]
        exact ih.cons_cons _
      | error failure =>
        simp only [List.filterMap_cons, renderedMessage_error hrender, List.map_cons]
        exact ih.cons _
  refine (hsub request.files.zipIdx).nodup ?_
  rw [List.zipIdx_map_fst]
  exact nodup_places cwd _ _ _

/-- The sink once it has everything, and its report. -/
def lastMessage (tools : Tools) (body : TemplateKey → String) (request : ScaffoldRequest) :
    AllTemplatesRendered where
  totalFiles := request.files.length
  dryRun := request.dryRun
  jsonOutput := request.jsonOutput
  outputDir := request.outputDir
  files := (messages tools body request).map fun m => m.rendered.filePath
  failures := renderFailures tools body request
  language := request.language
  name := request.name
  primitiveType := request.primitiveType
  subscribes := request.subscribes
  publishes := request.publishes

theorem handle_eq : handle tools (.new body) request =
    (messages tools body request).map .templateRendered ++
      [.allTemplatesRendered (lastMessage tools body request)] := by
  rw [handle, renderAll_eq, filesFor_new]
  rfl

def emptyWriter (disk : Files) : FileWriter := ⟨[], [], disk, none⟩

/-- The error the sink reports in the end. -/
def finalError (tools : Tools) (body : TemplateKey → String) (request : ScaffoldRequest)
    (cwd : PathBuf) (answers : String → DiskAnswer) (disk : Files) : Option String :=
  scaffoldError request.files.length
    ((messages tools body request).map fun m => m.rendered.filePath)
    (renderFailures tools body request ++
      (written cwd answers (emptyWriter disk) (messages tools body request)).writeFailures)

theorem message_of_file {file content : String} (hfile : file ∈ request.files)
    (hrender : renderFile tools (.new body) request file = .ok content) :
    ∃ m ∈ messages tools body request, m.rendered.filePath = file ∧ m.rendered.content = content ∧
      m.dryRun = request.dryRun ∧ m.outputDir = request.outputDir := by
  obtain ⟨i, hi⟩ := List.mem_iff_getElem?.mp hfile
  exact ⟨⟨⟨file, content, i, request.files.length⟩, request.dryRun, request.jsonOutput,
      request.outputDir⟩,
    mem_messages.mpr ⟨content, i, List.mk_mem_zipIdx_iff_getElem?.mpr hi, hrender, rfl⟩,
    rfl, rfl, rfl, rfl⟩

theorem file_of_message {m : TemplateRenderedMessage} (hm : m ∈ messages tools body request) :
    m.rendered.filePath ∈ request.files ∧ m.dryRun = request.dryRun ∧
      m.outputDir = request.outputDir := by
  obtain ⟨content, i, hentry, _, heq⟩ := mem_messages.mp hm
  refine ⟨List.mem_of_getElem? (List.mk_mem_zipIdx_iff_getElem?.mp hentry), ?_, ?_⟩
  · rw [heq]
  · rw [heq]

/-- A file that cannot be produced is named by a failure of the handler or the sink. -/
theorem failure_of_fails (cwd : PathBuf) (disk : Files) {file : String}
    (hfile : file ∈ request.files) (hfails : Fails tools body answers request file) :
    ∃ failure ∈ renderFailures tools body request ++
      (written cwd answers (emptyWriter disk) (messages tools body request)).writeFailures,
      failure.file = file := by
  cases hrender : renderFile tools (.new body) request file with
  | error failure =>
    obtain ⟨i, hi⟩ := List.mem_iff_getElem?.mp hfile
    refine ⟨failure, List.mem_append_left _ (List.mem_filterMap.mpr ⟨(file, i),
      List.mk_mem_zipIdx_iff_getElem?.mpr hi, ?_⟩), renderFile_error_file hrender⟩
    rw [renderFailure_error hrender]
  | ok content =>
    rcases hfails with ⟨failure, herror⟩ | ⟨hdry, hanswer⟩
    · cases hrender.symm.trans herror
    · obtain ⟨m, hm, hpath, _, hmdry, _⟩ := message_of_file hfile hrender
      obtain ⟨failures, hlist, hnamed, _⟩ := written_failures cwd answers (emptyWriter disk)
        (messages tools body request)
      obtain ⟨failure, hin, hname⟩ := hnamed m hm ⟨hmdry.trans hdry, by rwa [hpath]⟩
      refine ⟨failure, List.mem_append_right _ ?_, hname.trans hpath⟩
      rw [hlist]
      exact List.mem_append_right _ hin

theorem finalError_eq_none (cwd : PathBuf) (disk : Files) :
    finalError tools body request cwd answers disk = none ↔
      ∀ file ∈ request.files, ¬ Fails tools body answers request file := by
  rw [finalError, scaffoldError_eq_none]
  constructor
  · rintro ⟨hnone, _⟩ file hfile hfails
    obtain ⟨failure, hmem, _⟩ := failure_of_fails cwd disk hfile hfails
    rw [hnone] at hmem
    cases hmem
  · intro hgood
    have hrendered : renderFailures tools body request = [] := by
      refine List.eq_nil_iff_forall_not_mem.mpr fun failure hmem => ?_
      obtain ⟨⟨file, i⟩, hentry, hfailure⟩ := List.mem_filterMap.mp hmem
      cases hrender : renderFile tools (.new body) request file with
      | error failure' =>
        exact hgood file (List.mem_of_getElem? (List.mk_mem_zipIdx_iff_getElem?.mp hentry))
          (Or.inl ⟨failure', hrender⟩)
      | ok content =>
        rw [renderFailure_ok hrender] at hfailure
        cases hfailure
    have hwritten : (written cwd answers (emptyWriter disk)
        (messages tools body request)).writeFailures = [] := by
      obtain ⟨failures, hlist, _, hsome⟩ := written_failures cwd answers (emptyWriter disk)
        (messages tools body request)
      by_cases hempty : failures = []
      · rw [hlist, hempty]
        rfl
      · obtain ⟨m, hm, hdry, hanswer⟩ := hsome hempty
        obtain ⟨hfile, hmdry, _⟩ := file_of_message hm
        exact absurd (Or.inr ⟨hmdry.symm.trans hdry, hanswer⟩) (hgood _ hfile)
    refine ⟨by rw [hrendered, hwritten]; rfl, ?_⟩
    have hcount := messages_add_failures tools body request request.files.length
      request.files.zipIdx
    change (messages tools body request).length + (renderFailures tools body request).length =
      request.files.zipIdx.length at hcount
    rw [hrendered, List.length_nil, List.length_zipIdx] at hcount
    rw [List.length_map]
    omega

/-! Before its last message the sink has written a first part of the files and
reported nothing. -/

theorem prefix_written (cwd : PathBuf) (answers : String → DiskAnswer) {taken : List Message}
    (h : taken <+: (messages tools body request).map Message.templateRendered) (w : FileWriter) :
    ∃ ms, ms <+: messages tools body request ∧
      taken.foldl (FileWriter.take cwd answers) w = written cwd answers w ms := by
  obtain ⟨ms, hms, rfl⟩ := List.prefix_map_iff.mp h
  exact ⟨ms, hms, rfl⟩

/-- The state of a run that has a request: the sink is where a first part of the
handler's messages leads it, and an outcome is a timeout or comes after all of them. -/
structure Sound (tools : Tools) (body : TemplateKey → String) (request : ScaffoldRequest)
    (cwd : PathBuf) (answers : String → DiskAnswer) (disk : Files) (s : Workflow) : Prop where
  handed : HandedOn (FileWriter.take cwd answers) (emptyWriter disk)
    (handle tools (.new body) request) s.inbox s.toSend s.sink
  unaborted : s.abort = none
  told : ∀ r ∈ s.outcome, r = .error Workflow.timedOut ∨
    (s.sink = (handle tools (.new body) request).foldl (FileWriter.take cwd answers)
        (emptyWriter disk) ∧ s.inbox = [] ∧ s.toSend = [] ∧
      r = (finalError tools body request cwd answers disk).elim (.ok ()) .error)

theorem final_report (tools : Tools) (body : TemplateKey → String) (request : ScaffoldRequest)
    (cwd : PathBuf) (answers : String → DiskAnswer) (disk : Files) :
    (((handle tools (.new body) request).foldl (FileWriter.take cwd answers)
        (emptyWriter disk)).report.map ScaffoldComplete.error) =
      some (finalError tools body request cwd answers disk) := by
  rw [handle_eq, List.foldl_append]
  rfl

theorem sound_step {disk : Files} {s t : Workflow} {turn : Turn}
    (hs : Sound tools body request cwd answers disk s) (h : s.step cwd answers turn = some t) :
    Sound tools body request cwd answers disk t := by
  cases turn with
  | handler =>
    rw [Workflow.step] at h
    cases hsend : s.toSend with
    | nil =>
      rw [hsend] at h
      cases h
    | cons m rest =>
      rw [hsend] at h
      rw [← Option.some.inj h]
      refine ⟨?_, hs.unaborted, fun r hr => Or.inl ?_⟩
      · have hhanded := hs.handed
        rw [hsend] at hhanded
        exact hhanded.send
      · rcases hs.told r hr with htimeout | ⟨_, _, hdone, _⟩
        · exact htimeout
        · cases hsend.symm.trans hdone
  | sink =>
    rw [Workflow.step] at h
    cases hinbox : s.inbox with
    | nil =>
      rw [hinbox] at h
      cases h
    | cons m rest =>
      rw [hinbox] at h
      rw [← Option.some.inj h]
      refine ⟨?_, hs.unaborted, fun r hr => Or.inl ?_⟩
      · have hhanded := hs.handed
        rw [hinbox] at hhanded
        exact hhanded.receive
      · rcases hs.told r hr with htimeout | ⟨_, hdone, _⟩
        · exact htimeout
        · cases hinbox.symm.trans hdone
  | completion =>
    have hheard : s.heard = s.sink.report.map fun report => report.error.elim (.ok ()) .error := by
      rw [Workflow.heard, hs.unaborted]
      cases s.sink.report <;> rfl
    rw [Workflow.step, hheard] at h
    cases hreport : s.sink.report with
    | none =>
      rw [hreport] at h
      cases h
    | some report =>
      rw [hreport] at h
      cases houtcome : s.outcome with
      | some r =>
        rw [houtcome] at h
        cases h
      | none =>
        rw [houtcome] at h
        rw [← Option.some.inj h]
        refine ⟨hs.handed, hs.unaborted, fun r hr => Or.inr ?_⟩
        have hhanded := hs.handed
        rw [handle_eq] at hhanded
        obtain ⟨hsink, hinbox, hsend⟩ := hhanded.finished
          (P := fun w => w.report ≠ none) (fun taken htaken hsome => by
            obtain ⟨ms, _, hfold⟩ := prefix_written cwd answers htaken (emptyWriter disk)
            rw [hfold, written_report] at hsome
            exact hsome rfl) (by rw [hreport]; exact Option.some_ne_none report)
        rw [← handle_eq] at hsink
        refine ⟨hsink, hinbox, hsend, ?_⟩
        have hfinal := final_report tools body request cwd answers disk
        rw [← hsink, hreport] at hfinal
        rw [← Option.some.inj hr, ← Option.some.inj hfinal]
  | timeout =>
    rw [Workflow.step] at h
    cases houtcome : s.outcome with
    | some r =>
      rw [houtcome] at h
      cases h
    | none =>
      rw [houtcome] at h
      rw [← Option.some.inj h]
      exact ⟨hs.handed, hs.unaborted, fun r hr => Or.inl (Option.some.inj hr).symm⟩

/-- What an aborted run tells the command. -/
def abortedOutcome (e : ScaffoldError) : Except String Unit :=
  if e = .cancelled then .ok () else .error e.text

/-- The state of a run without a request. -/
def Unstarted (e : ScaffoldError) (disk : Files) (s : Workflow) : Prop :=
  (s.toSend = [] ∧ s.inbox = [] ∧ s.sink = emptyWriter disk ∧ s.abort = some (aborted e)) ∧
    ∀ r ∈ s.outcome, r = .error Workflow.timedOut ∨ r = abortedOutcome e

theorem unstarted_step {e : ScaffoldError} {disk : Files} {s t : Workflow} {turn : Turn}
    (hs : Unstarted e disk s) (h : s.step cwd answers turn = some t) : Unstarted e disk t := by
  obtain ⟨⟨hsend, hinbox, hsink, habort⟩, htold⟩ := hs
  cases turn with
  | handler =>
    rw [Workflow.step, hsend] at h
    cases h
  | sink =>
    rw [Workflow.step, hinbox] at h
    cases h
  | completion =>
    have hheard : s.heard = some (abortedOutcome e) := by
      rw [Workflow.heard, hsink, habort]
      cases e <;> rfl
    rw [Workflow.step, hheard] at h
    cases houtcome : s.outcome with
    | some r =>
      rw [houtcome] at h
      cases h
    | none =>
      rw [houtcome] at h
      rw [← Option.some.inj h]
      exact ⟨⟨hsend, hinbox, hsink, habort⟩, fun r hr => Or.inr (Option.some.inj hr).symm⟩
  | timeout =>
    rw [Workflow.step] at h
    cases houtcome : s.outcome with
    | some r =>
      rw [houtcome] at h
      cases h
    | none =>
      rw [houtcome] at h
      rw [← Option.some.inj h]
      exact ⟨⟨hsend, hinbox, hsink, habort⟩, fun r hr => Or.inl (Option.some.inj hr).symm⟩

/-- The disk of a run never shows anything but listed files, and in the end all
those that can be produced. -/
theorem Sound.disk_elsewhere {disk : Files} {s : Workflow}
    (hs : Sound tools body request cwd answers disk s) {p : PathBuf}
    (hp : request.dryRun = true ∨
      ∀ file ∈ request.files, p ≠ place cwd request.outputDir file) : s.sink.disk p = disk p := by
  have hfrom : ∀ ms, ms <+: messages tools body request →
      (written cwd answers (emptyWriter disk) ms).disk p = disk p := by
    intro ms hms
    refine written_elsewhere fun m hm => ?_
    obtain ⟨hfile, hdry, hdir⟩ := file_of_message (hms.subset hm)
    rcases hp with hp | hp
    · exact Or.inl (hdry.trans hp)
    · rw [placeOf, hdir]
      exact Or.inr (hp _ hfile)
  obtain ⟨taken, hall, hsink⟩ := hs.handed
  rw [hsink]
  rw [handle_eq, List.append_assoc] at hall
  rcases List.eq_nil_or_concat (s.inbox ++ s.toSend) with hnil | ⟨before, m, hrest⟩
  · rw [hnil, List.append_nil] at hall
    rw [← hall, List.foldl_append]
    exact hfrom _ List.prefix_rfl
  · rw [hrest, List.concat_eq_append, ← List.append_assoc] at hall
    obtain ⟨ms, hms, hfold⟩ := prefix_written cwd answers
      ⟨before, (List.append_inj_left' hall rfl).symm⟩ (emptyWriter disk)
    rw [hfold]
    exact hfrom ms hms

end

/-! ### The names of scaffolded primitives -/

theorem validPrimitiveName_of_validateName {tools : Tools} {name : String}
    (h : validateName tools name = .ok ()) : Sdk.ValidPrimitiveName name := by
  rw [validateName] at h
  split at h
  · cases h
  · split at h
    · cases h
    · split at h
      · cases h
      · split at h
        · cases h
        · cases hnew : PrimitiveName.new name with
          | error e =>
            rw [hnew] at h
            cases h
          | ok n =>
            rw [← PrimitiveName.new_value hnew]
            exact n.valid

theorem ok_of_mapError {α β ε : Type} {f : ε → β} {x : Except ε α} {a : α}
    (h : x.mapError f = .ok a) : x = .ok a := by
  cases x with
  | error e => cases h
  | ok b => rw [Except.ok.inj h]

theorem name_of_buildFromArgs {tools : Tools} {args : ScaffoldArgs} {request : ScaffoldRequest}
    (h : buildFromArgs tools args = .ok request) : Sdk.ValidPrimitiveName request.name := by
  obtain ⟨_, _, h⟩ := Fallible.ok_of_bind h
  obtain ⟨_, _, h⟩ := Fallible.ok_of_bind h
  obtain ⟨_, _, h⟩ := Fallible.ok_of_bind h
  obtain ⟨name, _, h⟩ := Fallible.ok_of_bind h
  obtain ⟨_, hname, h⟩ := Fallible.ok_of_bind h
  rw [← Except.ok.inj h]
  exact validPrimitiveName_of_validateName (ok_of_mapError hname)

/-- The wizard checks a name from the command line as well. -/
theorem name_of_runWizard {tools : Tools} {prompts : Prompts} {args : ScaffoldArgs}
    {request : ScaffoldRequest} (h : runWizard tools prompts args = .ok request)
    (hgiven : args.name.isSome = true) : Sdk.ValidPrimitiveName request.name := by
  obtain ⟨given, hgiven⟩ := Option.isSome_iff_exists.mp hgiven
  obtain ⟨_, _, h⟩ := Fallible.ok_of_bind h
  obtain ⟨_, _, h⟩ := Fallible.ok_of_bind h
  obtain ⟨name, hname, h⟩ := Fallible.ok_of_bind h
  obtain ⟨_, _, h⟩ := Fallible.ok_of_bind h
  obtain ⟨_, _, h⟩ := Fallible.ok_of_bind h
  obtain ⟨_, _, h⟩ := Fallible.ok_of_bind h
  obtain ⟨_, _, h⟩ := Fallible.ok_of_bind h
  rw [← Except.ok.inj h]
  rw [wizardName, hgiven] at hname
  obtain ⟨_, hvalid, hsame⟩ := Fallible.ok_of_bind hname
  rw [← Except.ok.inj hsame]
  exact validPrimitiveName_of_validateName (ok_of_mapError hvalid)

/-- Whichever way the request is collected, a name from the command line is checked. -/
theorem name_of_collect {tools : Tools} {prompts : Prompts} {args : ScaffoldArgs}
    {request : ScaffoldRequest} (h : collect tools prompts args = .ok request)
    (hgiven : args.name.isSome = true) : Sdk.ValidPrimitiveName request.name := by
  rw [collect] at h
  split at h
  · exact name_of_buildFromArgs h
  · exact name_of_runWizard h hgiven

def timerTools : Tools where
  toLowercase := fun s => String.ofList (s.toList.map Char.toLower)
  toSnakeCase := id
  toUpperCamelCase := String.capitalize
  nameError := fun _ => "invalid name"
  render := fun body _ => .ok body
  sdkVersion := "0.13.1"

def timerArgs : ScaffoldArgs where
  language := some "rs"
  primitiveType := some "source"
  name := some "timer"
  subscribes := none
  publishes := some "timer.tick, "
  output := none
  description := none
  dryRun := false
  json := false

/-- Nobody is at the terminal. -/
def noPrompts : Prompts where
  interact _ _ := .error "not a terminal"
  interactText _ _ _ := .error "not a terminal"

def timerBody (_ : TemplateKey) : String := "# generated"

def halfDisk (file : String) : DiskAnswer :=
  if file = "Cargo.toml" then ⟨none, .done, ""⟩ else ⟨none, .refused, "disk full"⟩

def timerRequest : ScaffoldRequest where
  language := .rust
  name := "timer"
  primitiveType := .source
  subscribes := []
  publishes := ["timer.tick"]
  description := "A source primitive"
  outputDir := "./timer"
  dryRun := false
  jsonOutput := false

def timerStart : Workflow :=
  .start timerTools (.new timerBody)
    (collect timerTools noPrompts timerArgs) (fun _ => none)

def timerTurns : List Turn :=
  [.handler, .sink, .handler, .handler, .sink, .sink, .completion]

end Emergent.Engine.Scaffold
