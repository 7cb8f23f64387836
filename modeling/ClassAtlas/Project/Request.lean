import ClassAtlas.Graph.Markup
import ClassAtlas.Project.Session
import ClassAtlas.Summary

/-! The requests that a session answers. -/

namespace ClassAtlas.Session

inductive Request where
  | setFile (path : String) (content : Reading)
  | removeFile (path : String)
  | scan (paths : List String)
  | classAt (path : String)
  | atlas
  | findClass (name : String)
  | ofKind (kind : RelationshipKind)
  | methodUsages (className methodName : String)
  | methodStats (className methodName : String)
  | classUsages (className : String)
  | methodExamples (className methodName : String)
  | classExamples (className : String)
  | summary
  | graph
  | timedStages
  | setLogLevel (level : String)
  | journal

inductive Reply where
  | done
  | paths (paths : List String)
  | scanned (atlas : Atlas)
  | atlas (atlas : Atlas)
  | found (c : Option JavaClass)
  | relationships (relationships : List Relationship)
  | usages (usages : List Usage)
  | stats (stats : UsageStats)
  | examples (examples : Examples)
  | summary (summary : Summary)
  | graph (graph : Graph.Multigraph)
  | stages (stages : List Log.Stage)
  | events (events : List Log.Event)

/-- The reply to a request, and the session after it. -/
def perform (s : Session) : Request → Except Fault (Reply × Session)
  | .setFile path content =>
    let s := s.setFile path content
    .ok (.paths s.paths, s)
  | .removeFile path =>
    let s := s.removeFile path
    .ok (.paths s.paths, s)
  | .scan paths => .ok ((s.scan paths).map .scanned id)
  | .classAt path => .ok ((s.classAt? path).map .found id)
  | .atlas => .ok (.atlas s.atlas, s)
  | .findClass name => .ok (.found (s.atlas.findClass? name), s)
  | .ofKind kind => .ok (.relationships (s.atlas.ofKind kind), s)
  | .methodUsages className methodName =>
    .ok ((s.methodUsages className methodName).map .usages id)
  | .methodStats className methodName => .ok ((s.methodStats className methodName).map .stats id)
  | .classUsages className => .ok ((s.classUsages className).map .usages id)
  | .methodExamples className methodName =>
    .ok ((s.methodExamples className methodName).map .examples id)
  | .classExamples className => .ok ((s.classExamples className).map .examples id)
  | .summary => .ok (.summary s.atlas.summary, s)
  | .graph => .ok (.graph (.ofAtlas s.atlas), s)
  | .timedStages => .ok (.stages s.timed, s)
  | .setLogLevel level => (s.setLogLevel level).map fun s => (.done, s)
  | .journal => .ok (s.takeJournal.map .events id)

end ClassAtlas.Session
