import ClassAtlas.Usage.Mining
import ClassAtlas.Usage.Samples

/-! Examples of how a class or a method of a project is used. -/

namespace ClassAtlas.Project

open Log

/-- The samples of the first method of a name in the first class of a name. -/
def samplesOfMethod (atlas : Atlas) (className methodName : String) : List Sample :=
  match atlas.findClass? className with
  | none => []
  | some c =>
    match c.methods.find? (·.name == methodName) with
    | some m => Usage.methodSamples c m
    | none => []

/-- The usages of a method, or samples if there are none. -/
def methodExamples (settings : Settings) (load : Loader) (atlas : Atlas)
    (className methodName : String) : Logged Examples := do
  let real ← Usage.methodUsages settings load atlas className methodName
  let synthetic := if real.isEmpty then samplesOfMethod atlas className methodName else []
  record (.examplesCollected className methodName real.length synthetic.length)
  return ⟨real, synthetic⟩

def samplesOfClass (atlas : Atlas) (className : String) : List Sample :=
  match atlas.findClass? className with
  | none => []
  | some c => Usage.classSamples c

/-- The usages of a class, or a sample if there are none. -/
def classExamples (settings : Settings) (load : Loader) (atlas : Atlas) (className : String) :
    Logged Examples := do
  let real ← Usage.classUsages settings load atlas className
  return ⟨real, if real.isEmpty then samplesOfClass atlas className else []⟩

end ClassAtlas.Project
