import ReadThrough.Files.Tree
import ReadThrough.Settings.Reader
import ReadThrough.Yaml.Plain

/-!
# Settings in YAML

The settings of a node are written as one YAML document. An empty text stands for the settings
where nothing is given. Files of settings are read as text first, and a fault names the file.
-/

namespace ReadThrough

/-- How a node of a YAML document is read. -/
def Yaml.Node.reader : Reader Yaml.Node where
  text? := Yaml.Node.text?
  natural? := Yaml.Node.natural?
  bool? := Yaml.Node.bool?
  isNull := Yaml.Node.isNull
  given? := Yaml.Node.given?
  list? := Yaml.Node.list?
  fields? := Yaml.Node.fields?
  positional? _ := none
  choice? := Yaml.Node.choice?

namespace NodeSettings

/-- The settings that a YAML text describes, if it is one. -/
def ofYaml? (text : String) : Option NodeSettings := do
  match ← Yaml.document? text with
  | none => some .default
  | some root => NodeSettings.read? Yaml.Node.reader root

/-- Read settings from a YAML text, or refuse it. -/
def ofYaml (text : String) : Except Fault NodeSettings :=
  match ofYaml? text with
  | some settings => .ok settings
  | none => .error (.configuration "Invalid config")

/-- Read settings from a file, or refuse it. -/
def load (tree : Files.Tree) (path : String) : Except Fault NodeSettings :=
  match tree.readText path.toList with
  | .ok text => ofYaml text
  | .error fault =>
      .error (.configuration ("Failed to read " ++ path ++ ": " ++ fault.message))

end NodeSettings

end ReadThrough
