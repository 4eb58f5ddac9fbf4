import CommentProse.Processor

/-!
Processors by file extension.

* `Factory`: a way to make a processor, which may fail;
* `Registry.register`, `Registry.lookup`, `Registry.extensions`: the last factory registered for
  an extension counts, and extensions are listed in ascending order;
* `Registry.registerAll`: the processors that come with the library.
-/

namespace CommentProse

/-- The outcome of making a processor. -/
abbrev Factory := Except SourceError Processor

/-- Factories by extension, in ascending order of the extensions. -/
structure Registry where
  entries : List (String × Factory)

namespace Registry

/-- No extensions. -/
def empty : Registry := ⟨[]⟩

/-- Puts a factory into an ascending list, in place of one for the same extension. -/
def insert (ext : String) (factory : Factory) :
    List (String × Factory) → List (String × Factory)
  | [] => [(ext, factory)]
  | e :: es =>
    if ext < e.1 then (ext, factory) :: e :: es
    else if ext = e.1 then (ext, factory) :: es
    else e :: insert ext factory es

/-- Registers a factory for an extension. -/
def register (r : Registry) (ext : String) (factory : Factory) : Registry :=
  ⟨insert ext factory r.entries⟩

/-- The factory for an extension. -/
def factory? (r : Registry) (ext : String) : Option Factory := r.entries.lookup ext

/-- A processor for an extension; none if the extension is unknown. -/
def lookup (r : Registry) (ext : String) : Except SourceError (Option Processor) :=
  match r.factory? ext with
  | none => .ok none
  | some factory => factory.map some

/-- The extensions in ascending order. -/
def extensions (r : Registry) : List String := r.entries.map Prod.fst

/-- Registers the processors that come with the library. -/
def registerAll (r : Registry) : Registry :=
  Processor.kotlinExtensions.foldl (fun r ext => r.register ext (.ok Processor.kotlin)) r

/-- The registry of the processors that come with the library. -/
def standard : Registry := empty.registerAll

end Registry

end CommentProse
