import ClassAtlas.Source.Methods

/-! Fields: declarations that stand outside the bodies of methods. -/

namespace ClassAtlas.Source

open Pattern

structure FieldHead extends MemberHead where
  type : Excerpt
  name : Excerpt

/-- The type of a field: a word, maybe with type arguments, and maybe with brackets. -/
def fieldType : Pattern Unit :=
  (do word; maybe genericArguments; maybe (lit "[]")) <|> (do word; lit "[]")

def fieldPattern : Pattern FieldHead := do
  let head ← memberHead ["transient", "volatile"]
  let type ← captured fieldType
  blanks1
  let name ← captured word
  maybe do
    blanks
    lit "="
    run1 (· != ';')
  lit ";"
  return ⟨head, type, name⟩

/-- A field and the position of its declaration. -/
structure LocatedField where
  start : Nat
  field : Field

/-- The field of a head, unless the head stands inside one of the bodies, is a statement or stands
in a comment. -/
def fieldOfHead? (bodies : List Span) (window : Option Int) (head : FieldHead) :
    Option LocatedField :=
  let start := head.start.offset
  let type := head.type.text
  let name := head.name.text
  if bodies.any (fun s => s.start < start && start < s.stop) ||
      statementKeywords.contains type || statementKeywords.contains name ||
      inCommentLine head.start then none
  else some
    { start
      field :=
        { name, type
          visibility := (head.visibility.map (·.text)).getD "package"
          isStatic := head.isStatic
          annotations := annotationsBefore head.start window } }

/-- The fields of a source in the order of their declarations. -/
def locatedFields (content : List Char) (bodies : List Span) (window : Option Int) :
    List LocatedField :=
  (fieldPattern.matchesIn content).filterMap fun m => fieldOfHead? bodies window m.value

def fields (content : List Char) (bodies : List Span) (window : Option Int) : List Field :=
  (locatedFields content bodies window).map (·.field)

end ClassAtlas.Source
