import ApiScaffold.Document.Bundle
import ApiScaffold.Document.Shape

/-!
# Models of documents

`Document.loadModel` loads a document in one piece, checks that it is an API description of a version
that is known, and builds its model.
-/

namespace ApiScaffold.Document

/-- Fails unless the document has the form of a description and its version begins with 3. -/
def check (file : Path) (doc : Json) : Except Failure Unit := do
  if !Form.document.fits doc then throw ⟨[.checkDocument file], .json⟩
  let version := (doc.getStr? "openapi").getD ""
  if !Text.startsWith "3." version then throw (.ofCause (.unsupportedVersion file version))

def loadModel (d : Disk) (file : Path) (context : String) : Except Failure Model := do
  let doc ← load d file
  check file doc
  (Model.build doc context).mapError fun e => .ofCause (.model e)

end ApiScaffold.Document
