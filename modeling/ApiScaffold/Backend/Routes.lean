import ApiScaffold.Backend.Source
import ApiScaffold.Text.Quoted

/-!
# The routes

One file that lists the own operations with method, path, tag and security.
-/

namespace ApiScaffold.Backend

def routeLine (op : Operation) : String :=
  let schemes := ", ".intercalate (op.security.map fun s => Text.quote s.name)
  s!"\t\x7bMethod: {Text.quote op.method}, Path: {Text.quote op.path}, OperationID: "
    ++ s!"{Text.quote op.id}, Tag: {Text.quote op.tag}, Public: {op.isPublic}, "
    ++ s!"Schemes: []string\x7b{schemes}\x7d\x7d,"

def routesFile (m : Model) : String :=
  page <| packageLines "http"
    ++ ["", s!"// Route describes one operation of {m.title} {m.version}.",
      "type Route struct \x7b",
      "\tMethod      string",
      "\tPath        string",
      "\tOperationID string",
      "\tTag         string",
      "\tPublic      bool",
      "\tSchemes     []string",
      "\x7d",
      "",
      "// Pattern returns the net/http ServeMux pattern of the route.",
      "func (r Route) Pattern() string \x7b",
      "\treturn r.Method + \" \" + r.Path",
      "\x7d",
      "",
      "// Routes lists every operation owned by this service, ordered by operation ID.",
      "var Routes = []Route\x7b"]
    ++ m.ownOperations.map routeLine ++ ["\x7d"]

def routes (m : Model) : Script := .put "http/routes.gen.go" (routesFile m)

end ApiScaffold.Backend
