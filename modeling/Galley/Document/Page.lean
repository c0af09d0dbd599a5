import Galley.Html.Escape

/-!
# Pages

A converted document has a body, the includes for its head, and statements to run once it has
loaded. A page puts them into a complete HTML document.
-/

namespace Galley.Document

structure Converted where
  body : Text := []
  head : Text := []
  onload : Text := []
deriving DecidableEq, Repr

def Converted.page (doc : Converted) (title : Text) (dark : Bool) : Text :=
  "<!DOCTYPE html>\n<html>\n<head>\n<meta charset=\"utf-8\" />\n"
  ++ "<meta name=\"viewport\" content=\"width=device-width, initial-scale=1\" />\n"
  ++ "<title>" ++ Html.escape title ++ "</title>\n"
  ++ Text.when (!doc.head.isEmpty) (doc.head ++ "\n")
  ++ "</head>\n<body class='" ++ (if dark then "dark" else "light" : Text) ++ "'>\n"
  ++ doc.body
  ++ Text.when (!doc.onload.isEmpty)
    ("<script>window.addEventListener('load', function() \x7b " ++ doc.onload
      ++ " \x7d);</script>\n")
  ++ "</body>\n</html>\n"

end Galley.Document
