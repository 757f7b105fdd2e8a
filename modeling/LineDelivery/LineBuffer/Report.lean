import LineDelivery.LineBuffer
import LineDelivery.Log.Entry

/-!
# What a line buffer logs
-/

namespace LineDelivery.LineBuffer.Cut

def entry (cut : Cut) : Log.Entry :=
  { level := .debug
    message := "Flushing write buffer"
    fields := [("lines", toString cut.lineCount), ("bytes", toString cut.byteCount)] }

end LineDelivery.LineBuffer.Cut
