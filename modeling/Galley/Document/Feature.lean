import Galley.Document.Options
import Galley.Text.Blank

/-!
# Features

A document shows by fixed strings in its markup which features it needs. Each feature adds
stylesheets and scripts to the head of the page and statements to run once it has loaded. Without
math, every dollar sign of the markup is escaped instead.
-/

namespace Galley.Document

structure Features where
  math : Bool := false
  code : Bool := false
  mermaid : Bool := false
  admonition : Bool := false
  /-- Whether the document is cut into slides at its rules. -/
  presentation : Bool := false
deriving DecidableEq, Repr

namespace Features

/-- The lines that make a document a presentation. -/
def presentationLines : List Text := ["class:beamer", "class: beamer"]

/-- Whether some line says that the document is a presentation. -/
def isPresentation (markup : Text) : Bool :=
  (Text.lines markup).any fun line => presentationLines.contains (Text.trimEnd line)

def detect (markup : Text) : Features where
  math := Text.hasInfix "$" markup
  code := Text.hasInfix "```" markup
  mermaid := Text.hasInfix "```mermaid" markup
  admonition := Text.hasInfix "!!!" markup || Text.hasInfix "???" markup
  presentation := isPresentation markup

end Features

/-! ## Includes -/

/-- The base of asset paths that a setting stands for: it ends in a slash unless it is empty. -/
def assetBase (url : Text) : Text :=
  if url.isEmpty || Text.hasSuffix "/" url then url else url ++ "/"

/-- Something that the head of a page includes. -/
inductive Include
  | stylesheet (path : Text)
  | script (path : Text)
  | inline (source : Text)
deriving DecidableEq, Repr

/-- The HTML of an include; paths are relative to `base`. -/
def Include.html (base : Text) : Include → Text
  | stylesheet path => "<link rel='stylesheet' href='" ++ base ++ path ++ "'/>"
  | script path => "<script src='" ++ base ++ path ++ "'></script>"
  | inline source => "<script>" ++ source ++ "</script>"

def codeIncludes (options : Options) : List Include :=
  [.stylesheet ("prism/themes/prism" ++ Text.when options.darkMode "-tomorrow" ++ ".min.css"),
    .stylesheet "prism/prism-mdv.css",
    .stylesheet "prism/plugins/toolbar/prism-toolbar.css",
    .script "prism/prism.js",
    .script "prism/components.js",
    .script "prism/prism-mdv.js",
    .script "prism/plugins/autoloader/prism-autoloader.min.js",
    .script "prism/plugins/toolbar/prism-toolbar.min.js",
    .script "prism/plugins/copy-to-clipboard/prism-copy-to-clipboard.min.js"]
  ++ if options.lineNumbers then
      [.stylesheet "prism/plugins/line-numbers/prism-line-numbers-mdv.css",
        .script "prism/plugins/line-numbers/prism-line-numbers.min.js",
        .script "prism/plugins/line-numbers/prism-line-numbers-mdv.js"]
    else []

def mathIncludes : List Include :=
  [.stylesheet "katex/katex.min.css", .script "katex/katex.min.js",
    .script "katex/katex-render.js", .script "katex/mhchem.min.js"]

def mermaidIncludes (options : Options) : List Include :=
  [.script "mermaid/mermaid.min.js",
    .inline ("mermaid.initialize(\x7btheme:'" ++ (if options.darkMode then "dark" else "default" : Text)
      ++ "',logLevel:5,securityLevel:'loose'\x7d);")]

def admonitionIncludes : List Include :=
  [.stylesheet "admonition/admonition.css", .script "admonition/admonition.js"]

def Features.includes (features : Features) (options : Options) : List Include :=
  [.stylesheet "markdown.css"]
  ++ (if features.math && options.math then mathIncludes else [])
  ++ (if features.code then codeIncludes options else [])
  ++ (if features.mermaid then mermaidIncludes options else [])
  ++ (if features.admonition then admonitionIncludes else [])

/-- The statements to run once the page has loaded. -/
def Features.onload (features : Features) (options : Options) : Text :=
  Text.when features.code "usePrismCodeBlock();"
  ++ Text.when (features.code && options.wordWrap) "wrapCodeBlockWords();"
  ++ Text.when options.lineNumbers "enableLineNumbers(); adjustLineNumbers();"

/-! ## Drafts -/

/-- A document on its way to a page. -/
structure Draft where
  /-- The markup, rewritten step by step. -/
  markup : Text
  head : Text := []
  onload : Text := []
  features : Features := {}
deriving DecidableEq, Repr

def escapeDollars (markup : Text) : Text := Text.replace "$" "\\$" markup

/-- Detects the features of a draft and adds what they need. -/
def Draft.applyFeatures (draft : Draft) (options : Options) : Draft :=
  let features := Features.detect draft.markup
  let base := assetBase options.assetsBaseUrl
  { markup := if features.math && !options.math then escapeDollars draft.markup else draft.markup
    head := draft.head ++ (features.includes options).flatMap (·.html base)
    onload := draft.onload ++ features.onload options
    features }

end Galley.Document
