import RemotePyMite.Message.Error
import RemotePyMite.Text.Utf8

/-! # Link parameters

Either side opens a link by telling the other what it can receive.  The parameters take
nineteen bytes: a flag, two sizes and a name padded with zero bytes to sixteen.
-/
namespace RemotePyMite

def syncIdLength : Nat := 16

def syncDataLength : Nat := 19

/-- The name and version the host goes by. -/
def hostName : String := "rpplink 0.1.0"

/-- What one side of a link tells the other. -/
structure SyncParameters where
  /-- The sender has just started and knows nothing of the link. -/
  reset : Bool
  /-- The largest frame the sender can receive. -/
  receiveBufferSize : UInt8
  /-- The bytes of a machine word of the sender. -/
  wordSize : UInt8
  /-- The name of the sender, padded with zero bytes. -/
  id : Vector UInt8 16
  deriving DecidableEq

namespace SyncParameters

/-- A name cut, or padded with zero bytes, to the width it has in link parameters. -/
def padId (name : Bytes) : Vector UInt8 16 :=
  ⟨((name ++ List.replicate syncIdLength 0).take syncIdLength).toArray, by
    simp [syncIdLength]⟩

def idText (p : SyncParameters) : String :=
  Utf8.decode (p.id.toList.takeWhile (· ≠ 0))

/-- What the host tells.  It leaves both sizes at zero, for a target sizes its frames by
its own buffers. -/
def host (reset : Bool) : SyncParameters where
  reset
  receiveBufferSize := 0
  wordSize := 0
  id := padId (Utf8.encode hostName)

def toBytes (p : SyncParameters) : Bytes :=
  (if p.reset then 1 else 0) :: p.receiveBufferSize :: p.wordSize :: p.id.toList

/-- The parameters in the data of a message; bytes behind them mean nothing. -/
def ofBytes (data : Bytes) : Except MessageError SyncParameters :=
  match data with
  | reset :: receiveBufferSize :: wordSize :: id =>
    if syncIdLength ≤ id.length then
      .ok ⟨reset != 0, receiveBufferSize, wordSize, padId id⟩
    else tooShort
  | _ => tooShort
where
  tooShort := .error
    (.malformed .sync s!"{data.length} data bytes, need {syncDataLength}")

end SyncParameters

end RemotePyMite
