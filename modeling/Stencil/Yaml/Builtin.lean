import Stencil.Yaml.Document
import Stencil.Yaml.Key

namespace Stencil.Yaml

/-- A reader and a writer for documents without anchors, tags, directives and blocks of literal text. -/
def builtin : Library where
  read text := (readDocument text.toList).mapError Fault.refusal
  write := mappingText

end Stencil.Yaml
