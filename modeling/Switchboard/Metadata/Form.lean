import Switchboard.Metadata.Basic
import Switchboard.Text.Form

/-! Metadata as form text, for readers: one `key=value` for each value in order. A key without values
    has no trace in it. -/

namespace Switchboard
namespace Metadata

def toForm (m : Metadata) : String := Text.Form.encode m.pairs

/-- The map that a form text stands for: the values of a repeated key gather in order. -/
def ofForm (s : String) : Metadata := ofPairs (Text.Form.decode s)

end Metadata
end Switchboard
