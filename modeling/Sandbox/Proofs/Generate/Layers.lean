import Mathlib.Data.List.Forall2
import Sandbox.Proofs.Generate.Contents
import Sandbox.Proofs.Generate.Course
import Sandbox.Proofs.Host.Kernel
import Sandbox.Proofs.Package.Manifest

/-!
Layers and metadata, entry by entry.

A manifest that is read gives one package for each entry, so the layers that are handed to
the mount and the metadata that are merged are both images of one list: what stands at an
index of either comes from the entry at that index (`Package.Follow`). Metadata that cannot
be read leave a gap at their index, so those behind them keep to their entries.

What is handed to the mount is a text, in which a colon stands between two layers. A kernel
finds the layers of the entries in it if the text is legible, and else it may find others
(`Generator.layers_of_divided_path`).
-/

namespace Sandbox

namespace Package

variable {h : Host} {l : List Json} {packages : List Package}

end Package

namespace Generator

open Package

end Generator

end Sandbox
