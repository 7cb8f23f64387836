import ClassAtlas.Loader
import ClassAtlas.Model.Basic
import ClassAtlas.Pattern.Search
import ClassAtlas.Settings.Basic
import ClassAtlas.StableSort
import ClassAtlas.Tally
import ClassAtlas.Text.Pieces
import ClassAtlas.Usage.Basic

/-! Finding the usages of a class or a method in the sources of the other classes. -/

namespace ClassAtlas.Usage

open Pattern Log

/-- The arguments between parentheses, cut at every comma. -/
def arguments (text : String) : List String :=
  ((Text.splitAt ',' text).map Text.trim).filter (!·.isEmpty)

/-- The lines within the radius of a line, which is marked by an arrow. -/
def contextOf (radius : Nat) (lines : List String) (index : Nat) : String :=
  let shown := (lines.zipIdx.take (index + radius + 1)).drop (index - radius)
  "\n".intercalate <| shown.map fun (line, i) =>
    (if i = index then "→ " else "  ") ++ Text.trim line

/-- Type arguments without nesting. -/
def typeArguments : Pattern Unit := do
  lit "<"
  run (· != '>')
  lit ">"

/-- Blanks before a name that may itself start with some. -/
def gap : Pattern Unit := many1 Text.isBlank

/-- A call of a method, with or without a qualifier; yields its arguments. -/
def callPattern (methodName : String) : Pattern Excerpt := do
  boundary
  maybe do
    word
    lit "."
  lit methodName
  blanks
  lit "("
  let args ← captured (run (· != ')'))
  lit ")"
  return args

/-- A call of a method through a member access; yields the qualifier. -/
def qualifiedCallPattern (methodName : String) : Pattern Excerpt := do
  boundary
  let qualifier ← captured word
  blanks
  lit "."
  many Text.isBlank
  lit methodName
  blanks
  lit "("
  return qualifier

/-- Whether a line counts as a call of a class's method. -/
def isLikelyCall (acceptance : UsageAcceptance) (className methodName line : String) : Bool :=
  let small := Text.lower line
  Text.occursIn (Text.lower methodName) small &&
    match acceptance with
    | .permissive => Text.occursIn (Text.lower className) small || Text.occursIn "." small
    | .strict =>
      ((qualifiedCallPattern methodName).matchesIn line.toList).any fun m =>
        [className, instanceName className, "this"].contains m.value.text

def injectionPattern (className : String) : Pattern Unit := do
  lit "@"
  oneOf ["Autowired", "Inject", "Resource"]
  gap
  maybe do
    oneOf ["private", "protected", "public"]
    gap
  maybe do
    lit "final"
    gap
  lit className
  boundary

def memberPattern (className : String) : Pattern Unit := do
  boundary
  oneOf ["private", "protected", "public"]
  gap
  maybe do
    lit "static"
    gap
  maybe do
    lit "final"
    gap
  lit className
  boundary
  maybe typeArguments
  blanks1
  word

def creationPattern (className : String) : Pattern Unit := do
  boundary
  lit "new"
  gap
  lit className
  blanks
  maybe typeArguments
  blanks
  lit "("

def assignmentPattern (className : String) : Pattern Unit := do
  boundary
  lit className
  boundary
  maybe typeArguments
  blanks1
  word
  blanks
  lit "="

/-- Whether a line injects, declares, creates or assigns an instance of a class. -/
def usesClass (className : String) (line : String) : Bool :=
  [injectionPattern, memberPattern, creationPattern, assignmentPattern].any fun pattern =>
    (pattern className).occurs line.toList

/-- The name that stands for the method in a usage of a class. -/
def classUsageTag : String := "class_usage"

structure SourceLines where
  path : String
  className : String
  lines : List String

def SourceLines.usage (radius : Nat) (source : SourceLines) (methodName line : String)
    (index : Nat) (parameters : List String) : Usage where
  sourceFile := source.path
  sourceClass := source.className
  methodName := methodName
  lineNumber := index + 1
  snippet := Text.trim line
  context := contextOf radius source.lines index
  parameters := parameters

def methodUsagesIn (settings : Settings) (className methodName : String)
    (source : SourceLines) : List Usage :=
  source.lines.zipIdx.flatMap fun (line, index) =>
    match (callPattern methodName).matchesIn line.toList with
    | [] => []
    | calls =>
      if isLikelyCall settings.usageAcceptance className methodName line then
        calls.map fun m =>
          source.usage settings.contextRadius methodName line index (arguments m.value.text)
      else []

def classUsagesIn (settings : Settings) (className : String) (source : SourceLines) :
    List Usage :=
  source.lines.zipIdx.filterMap fun (line, index) =>
    if usesClass className line then
      some (source.usage settings.contextRadius classUsageTag line index [])
    else none

/-- The lines of a class's file, if it can be read. -/
def sourceLines? (load : Loader) (c : JavaClass) : Logged (Option SourceLines) := do
  match ← load c.filePath with
  | .text content => return some ⟨c.filePath, c.name, Text.lines content⟩
  | .absent => return none
  | .failed reason => do
    record (.miningSkipped c.filePath reason)
    return none

/-- The sources of all classes of another name. -/
def otherSources (load : Loader) (className : String) (atlas : Atlas) :
    Logged (List SourceLines) := do
  let sources ← (atlas.classes.filter (·.name != className)).mapM (sourceLines? load)
  return sources.filterMap id

/-- The calls of a method, those with more arguments first. -/
def methodUsages (settings : Settings) (load : Loader) (atlas : Atlas)
    (className methodName : String) : Logged (List Usage) := do
  let sources ← otherSources load className atlas
  let found := sources.flatMap (methodUsagesIn settings className methodName)
  record (.methodUsagesFound found.length className methodName)
  return sortBy (fun a b => decide (b.parameters.length ≤ a.parameters.length)) found

/-- The items up to an end that counts from the back when it is negative. -/
def takeUpTo {α : Type} (limit : Option Int) (items : List α) : List α :=
  match limit with
  | none => items
  | some n => items.take (if 0 ≤ n then n else items.length + n).toNat

/-- The usages of a class in the order of files and lines, up to the limit. -/
def classUsages (settings : Settings) (load : Loader) (atlas : Atlas) (className : String) :
    Logged (List Usage) := do
  let sources ← otherSources load className atlas
  let found := sources.flatMap (classUsagesIn settings className)
  record (.classUsagesFound found.length className)
  return takeUpTo settings.classUsageLimit found

/-- The most frequent items, up to a limit below which nothing is left. -/
def mostCommon (limit : Option Int) (items : List String) : List String :=
  match limit with
  | none => byFrequency items
  | some n => (byFrequency items).take n.toNat

def methodStats (settings : Settings) (load : Loader) (atlas : Atlas)
    (className methodName : String) : Logged UsageStats := do
  let usages ← methodUsages settings load atlas className methodName
  return ⟨usages.length, mostCommon settings.commonParameterCount (usages.flatMap (·.parameters))⟩

end ClassAtlas.Usage
