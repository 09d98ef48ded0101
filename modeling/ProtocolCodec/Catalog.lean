import ProtocolCodec.FirstWins
import ProtocolCodec.Model.Basic

/-!
# Catalogs

Looking up declarations by the name the schema gives them. Of several declarations of one kind and
name the first counts; the three kinds do not see each other.
-/

namespace ProtocolCodec

/-- The declarations of a metamodel, the first of each name. -/
structure Catalog where
  structures : List Structure
  enumerations : List Enumeration
  aliases : List TypeAlias

namespace Catalog

/-- The catalog of a metamodel. -/
def ofModel (model : Model) : Catalog where
  structures := keepFirst Structure.name model.structures
  enumerations := keepFirst Enumeration.name model.enumerations
  aliases := keepFirst TypeAlias.name model.aliases

/-- The structure of a name. -/
def structure? (catalog : Catalog) (name : String) : Option Structure :=
  findName? Structure.name catalog.structures name

/-- The enumeration of a name. -/
def enumeration? (catalog : Catalog) (name : String) : Option Enumeration :=
  findName? Enumeration.name catalog.enumerations name

/-- The alias of a name. -/
def alias? (catalog : Catalog) (name : String) : Option TypeAlias :=
  findName? TypeAlias.name catalog.aliases name

end Catalog

end ProtocolCodec
