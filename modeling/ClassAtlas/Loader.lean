import ClassAtlas.Log.Logged

/-! Where the text of a source file comes from. -/

namespace ClassAtlas

inductive Reading where
  | text (content : String)
  | absent
  | failed (reason : String)
deriving DecidableEq

/-- Reads the file at a path, and may record why it could not. -/
def Loader := String → Log.Logged Reading

end ClassAtlas
