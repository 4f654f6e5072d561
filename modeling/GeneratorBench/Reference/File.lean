import GeneratorBench.Reference.Basic
import GeneratorBench.Toml.Document

/-!
Reference files: a reference written as a TOML document with a `name` and a list of `namespaces`.
Keys of no meaning here are read through and dropped; what a list has too much is not even read.
-/

namespace GeneratorBench

namespace ExportedNamespace

/-- A namespace is written as a table, or as the list of its name and its types. -/
def ofToml? : Toml.Value → Option ExportedNamespace
  | .table _ entries => do
    if !Toml.Entries.othersConvert entries ["name", "types"] then none
    let name ← (← Toml.Entries.get? entries "name").text?
    let types ← Toml.Entries.read entries "types" Toml.Value.texts? []
    some ⟨name, types⟩
  | .list (name :: rest) => do
    let name ← name.text?
    let types ← (rest.head?.map Toml.Value.texts?).getD (some [])
    some ⟨name, types⟩
  | _ => none

end ExportedNamespace

namespace Reference

def ofEntries? (entries : Toml.Entries) : Option Reference := do
  if !entries.othersConvert ["name", "namespaces"] then none
  let name ← (← entries.get? "name").text?
  let namespaces ← entries.read "namespaces"
    (fun v => do (← v.items?).mapM ExportedNamespace.ofToml?) []
  some ⟨name, namespaces⟩

def ofText? (text : String) : Option Reference := do
  ofEntries? (← Toml.Document.ofText? text)

end Reference

end GeneratorBench
