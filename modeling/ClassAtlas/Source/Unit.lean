import ClassAtlas.Role.Classification
import ClassAtlas.Settings.Basic
import ClassAtlas.Source.Dependencies
import ClassAtlas.Source.Fields
import ClassAtlas.Source.Header

/-! Reading one source file as the class that it declares. -/

namespace ClassAtlas.Source

/-- The class that a source declares, if there is one. -/
def readClass? (settings : Settings) (path : String) (content : List Char) : Option JavaClass :=
  (classHeader? content).map fun header =>
    let imports := importNames content
    let annotations := annotationsBefore header.start none
    let located := locatedMethods content settings.methodWindow header.name
    let fields := fields content (located.map (·.body)) settings.fieldWindow
    let classification := Role.classify annotations (located.map (·.method)) fields
    let methods := (located.zip classification.methodEndpoints).map fun (m, endpoint) =>
      { m.method with endpoint }
    { name := header.name
      filePath := path
      package := packageName content
      imports, annotations
      base := header.base
      interfaces := header.interfaces
      fields, methods
      dependencies := dependencies content imports fields methods
      isController := classification.isController
      endpoints := classification.endpoints
      rolePatterns := classification.rolePatterns
      injections := classification.injections }

end ClassAtlas.Source
