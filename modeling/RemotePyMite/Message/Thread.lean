import RemotePyMite.Bytes
import RemotePyMite.Message.Error
import RemotePyMite.Text.Utf8

/-! # Messages about threads

A thread is known by an address, a machine word of the target.  The word in front of
printed text has its least significant byte first, the words of a thread list have their
most significant byte first, and neither message says how wide its words are.
-/
namespace RemotePyMite

/-- Text printed by a thread, behind the address of the thread. -/
structure ThreadPrint where
  data : Bytes
  deriving DecidableEq, Repr

namespace ThreadPrint

def ofParts (address : UInt64) (width : Nat) (text : Bytes) : ThreadPrint :=
  ⟨Word.littleEndian width address.toNat ++ text⟩

/-- The address, for words of `width` bytes; no more than eight of them count. -/
def address (print : ThreadPrint) (width : Nat) : UInt64 :=
  UInt64.ofNat (Word.ofLittleEndian (print.data.take (min width 8)))

def text (print : ThreadPrint) (width : Nat) : Bytes :=
  print.data.drop width

end ThreadPrint

/-- The threads of a target, or without data the request for them. -/
structure ThreadList where
  data : Bytes
  deriving DecidableEq, Repr

namespace ThreadList

def request : ThreadList := ⟨[]⟩

/-- The answer of a target with words of `width` bytes. -/
def ofAddresses (addresses : List UInt64) (width : Nat) : ThreadList :=
  ⟨addresses.flatMap fun address => Word.bigEndian width address.toNat⟩

/-- The addresses, for words of `width` bytes; no more than the last eight of a word
count. -/
def addresses (list : ThreadList) (width : Nat) : Except MessageError (List UInt64) :=
  if width = 0 then .error (.malformed .threadList "word size is zero")
  else if list.data.length % width ≠ 0 then
    .error (.malformed .threadList
      s!"{list.data.length} bytes is not a whole number of {width}-byte words")
  else .ok ((list.data.pieces width).map fun word =>
    UInt64.ofNat (Word.ofBigEndian (word.drop (width - 8))))

end ThreadList

/-- The request to start a thread that runs a loaded module. -/
structure ThreadStart where
  moduleBytes : Bytes
  deriving DecidableEq, Repr

namespace ThreadStart

def ofName (name : String) : ThreadStart := ⟨Utf8.encode name⟩

def moduleName (start : ThreadStart) : String :=
  Utf8.decode start.moduleBytes

end ThreadStart

end RemotePyMite
