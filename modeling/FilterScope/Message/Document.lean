import FilterScope.Json.Value
import FilterScope.Json.Writer
import FilterScope.Message.Catalog

/-!
# Message catalogs as a JSON document

A document is an object from keys to templates, all of them strings. Its entries are put into the
English catalog in the order in which they are written.

A catalog is written with all of its entries, so a catalog that was read is not changed by writing
and reading it again.
-/

namespace FilterScope.Catalog

open Json

/-- Reads the entries of a document. -/
def entries : Reader (List (String × String)) :=
  Reader.object (fun entries key =>
    .ok ((fun template => entries ++ [(key, template)]) <$> Reader.string)) []

/-- The catalog that a document describes. -/
def ofDocument (text : String) : Except Fault Catalog :=
  (entries.document text).map ofEntries

/-- The document of a catalog. -/
def document (catalog : Catalog) : String :=
  String.ofList <| writeObject <| catalog.toList.map fun (key, template) =>
    (key, writeString template)

end FilterScope.Catalog
