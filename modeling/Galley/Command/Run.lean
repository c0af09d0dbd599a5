import Galley.Command.Report
import Galley.Command.Request
import Galley.Config.Load
import Galley.Document.Conversion

/-!
# Running the program

A request is carried out up to the writing of its output file, which is the only thing that
changes the system; what is told then depends on how the writing went.
-/

namespace Galley.Command

/-- What the program tells, and its exit code: 0 for success, 1 if something failed, 2 if the
arguments cannot be used. -/
structure Output where
  exit : Nat := 0
  stdout : Text := []
  stderr : Text := []
deriving DecidableEq, Repr

/-- What a request comes to. -/
inductive Plan
  | tell (output : Output)
  /-- Writes a file; the notes are told before. -/
  | write (path text notes : Text)
deriving DecidableEq, Repr

/-- A failure after the arguments were understood. -/
def failure (message : Text) : Output := { exit := 1, stderr := "Error: " ++ message ++ "\n" }

/-- What is told after a file was written. -/
def written (path notes : Text) : Except FileError Unit → Output
  | .ok () => { stderr := notes ++ "Wrote " ++ path ++ "\n" }
  | .error e => { failure e.message with stderr := notes ++ (failure e.message).stderr }

/-! ## Rendering -/

/-- The title of the page of a document: the first value of its attribute, or else the name of its
file without the extension. -/
def pageTitle (file markup : Text) : Text :=
  match ((Document.FrontMatter.extract markup).get? "title").bind List.head? with
  | some title => title
  | none => ((PathName.fileName? file).map PathName.stem).getD []

def convertedJson (doc : Document.Converted) : Json :=
  .object [("body", .string doc.body), ("head", .string doc.head),
    ("onload", .string doc.onload)]

def rendered (config : Config) (format : Format) (file markup : Text) : Text :=
  let doc := Document.convert config.options {} (some file) markup
  match format with
  | .page => doc.page (pageTitle file markup) config.darkMode
  | .fragment => doc.body
  | .json => (convertedJson doc).toText

/-- What a verbose run tells. -/
def notes (config : Config) (file : Text) : Text :=
  let loaded : Text := match config.path? with
    | some path => "Loaded configuration " ++ path ++ "\n"
    | none => []
  loaded ++ "Rendered " ++ file ++ "\n"

def RenderRequest.plan (here : SystemView) (request : RenderRequest) : Plan :=
  match Config.load here request.config? request.overrides with
  | .error e => .tell (failure e.message)
  | .ok config =>
    match here.read request.file with
    | .error e => .tell (failure e.message)
    | .ok markup =>
      let text := rendered config request.format request.file markup
      let notes := Text.when request.verbose (notes config request.file)
      match request.output? with
      | some path => .write path text notes
      | none => .tell { stdout := text, stderr := notes }

/-! ## Checking -/

def CheckRequest.output (here : SystemView) (request : CheckRequest) : Output :=
  match Config.load here request.config? {} with
  | .error e => failure e.message
  | .ok config =>
    match here.read request.file with
    | .error e => failure e.message
    | .ok markup =>
      let report := Report.ofDocument config request.file markup
      if request.json then { stdout := report.toJson.toText }
      else { stderr := report.toText request.file }

/-! ## About the program -/

def version : Text := "mdv 0.1.0\n"

def usage (command? : Option Text) : Text :=
  if command? = some "render" then
    "Usage: mdv render [OPTIONS] <FILE>\n\n"
    ++ "Renders a Markdown file to HTML.\n\n"
    ++ "Options:\n"
    ++ "  -c, --config <FILE>      configuration file\n"
    ++ "  -o, --output <FILE>      write to this file\n"
    ++ "  -f, --format <FORMAT>    page, fragment or json\n"
    ++ "      --toc <BOOL>         insert a table of contents\n"
    ++ "      --no-toc             insert no table of contents\n"
    ++ "      --math <BOOL>        render math\n"
    ++ "      --no-math            render no math\n"
    ++ "      --dark               use dark themes\n"
    ++ "      --wrap               wrap long lines of code\n"
    ++ "      --line-numbers       number the lines of code\n"
    ++ "      --newline-paragraph  break lines at every newline\n"
    ++ "  -v, --verbose            tell more\n"
    ++ "  -h, --help               print this help\n"
  else if command? = some "check" then
    "Usage: mdv check [OPTIONS] <FILE>\n\n"
    ++ "Tells what a Markdown file involves without rendering it.\n\n"
    ++ "Options:\n"
    ++ "  -c, --config <FILE>  configuration file\n"
    ++ "      --json           print JSON\n"
    ++ "  -v, --verbose        tell more\n"
    ++ "  -h, --help           print this help\n"
  else
    "Usage: mdv <COMMAND>\n\n"
    ++ "Renders Markdown for preview.\n\n"
    ++ "Commands:\n"
    ++ "  render  render a Markdown file to HTML\n"
    ++ "  check   tell what a Markdown file involves\n"
    ++ "  help    print this help or that of a command\n\n"
    ++ "Options:\n"
    ++ "  -h, --help     print this help\n"
    ++ "  -V, --version  print the version\n"

/-! ## The program -/

/-- The paths that carrying out a request may look at. -/
def Request.paths (folder : List Text) : Request → List Text
  | .render request => configPaths request.config? ++ [request.file]
  | .check request => configPaths request.config? ++ [request.file]
  | .help _ | .version => []
where
  /-- The paths on which the configuration is looked for. -/
  configPaths : Option Text → List Text
    | some path => [path]
    | none => Config.candidates folder

def plan (here : SystemView) (arguments : List Text) : Plan :=
  match Request.ofArguments arguments with
  | .error e => .tell { exit := 2, stderr := "error: " ++ e.message ++ "\n\n" ++ usage none }
  | .ok (.help command?) => .tell { stdout := usage command? }
  | .ok .version => .tell { stdout := version }
  | .ok (.render request) => request.plan here
  | .ok (.check request) => .tell (request.output here)

/-- Runs the program in a folder of a tree: what it tells, and the tree afterwards. -/
def runIn (root : FileTree) (folder : List Text) (environment : List (Text × Text))
    (arguments : List Text) : Output × FileTree :=
  match plan (root.view folder environment) arguments with
  | .tell output => (output, root)
  | .write path text notes =>
    match root.write folder path text with
    | .ok changed => (written path notes (.ok ()), changed)
    | .error e => (written path notes (.error e), root)

end Galley.Command
