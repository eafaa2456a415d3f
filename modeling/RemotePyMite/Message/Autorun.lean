import RemotePyMite.Bytes
import RemotePyMite.Text.Separated
import RemotePyMite.Text.Utf8

/-! # The modules a target starts by itself

The names are parted by commas.  No data at all asks for the names; a single zero byte
says that there are none.
-/
namespace RemotePyMite

/-- The names of the modules that a target starts, or without data the request for
them. -/
structure AutorunList where
  data : Bytes
  deriving DecidableEq, Repr

namespace AutorunList

def request : AutorunList := ⟨[]⟩

def isRequest (list : AutorunList) : Bool :=
  list.data.isEmpty

def ofNames (names : List String) : AutorunList :=
  if names.isEmpty then ⟨[0]⟩
  else ⟨List.intercalate [0x2C] (names.map Utf8.encode)⟩

/-- The names in the text in front of the first zero byte. -/
def names (list : AutorunList) : List String :=
  match Utf8.decodeChars (list.data.takeWhile (· ≠ 0)) with
  | [] => []
  | text => (Separated.parts ',' text).map String.ofList

end AutorunList

end RemotePyMite
