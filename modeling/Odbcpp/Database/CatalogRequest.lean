import Odbcpp.Foundation.Bytes

/-!
# Catalog requests

The normalized requests of `catalog_request.h`.
-/

namespace Odbcpp.Database

open Foundation

inductive CatalogNameMatch where
  | existing | identifierUnquoted | identifierQuoted
deriving DecidableEq

/-- How the names of a request are matched; foreign keys map the first three to the primary
side. -/
structure CatalogNameMatches where
  catalog : CatalogNameMatch := .existing
  schema : CatalogNameMatch := .existing
  object : CatalogNameMatch := .existing
  member : CatalogNameMatch := .existing
  foreignCatalog : CatalogNameMatch := .existing
  foreignSchema : CatalogNameMatch := .existing
  foreignObject : CatalogNameMatch := .existing
deriving DecidableEq

inductive TablesMode where
  | tables | catalogs | schemas | tableTypes
deriving DecidableEq

/-- Absent names are unrestricted, and absent types are all types. -/
structure TablesCatalogRequest where
  mode : TablesMode := .tables
  catalog : Option Bytes := none
  schema : Option Bytes := none
  table : Option Bytes := none
  types : Option (List Bytes) := none
  nameMatches : CatalogNameMatches := {}
deriving DecidableEq

structure PrimaryKeysCatalogRequest where
  catalog : Option Bytes := none
  schema : Option Bytes := none
  table : Bytes
  nameMatches : CatalogNameMatches := {}
deriving DecidableEq

structure ForeignKeysCatalogRequest where
  primaryCatalog : Option Bytes := none
  primarySchema : Option Bytes := none
  primaryTable : Option Bytes := none
  foreignCatalog : Option Bytes := none
  foreignSchema : Option Bytes := none
  foreignTable : Option Bytes := none
  nameMatches : CatalogNameMatches := {}
deriving DecidableEq

structure ColumnsCatalogRequest where
  catalog : Option Bytes := none
  schema : Option Bytes := none
  table : Option Bytes := none
  column : Option Bytes := none
  nameMatches : CatalogNameMatches := {}
deriving DecidableEq

structure StatisticsCatalogRequest where
  catalog : Option Bytes := none
  schema : Option Bytes := none
  table : Bytes
  uniqueOnly : Bool := false
  nameMatches : CatalogNameMatches := {}
deriving DecidableEq

structure ProceduresCatalogRequest where
  catalog : Option Bytes := none
  schema : Option Bytes := none
  procedure : Option Bytes := none
  nameMatches : CatalogNameMatches := {}
deriving DecidableEq

structure ProcedureColumnsCatalogRequest where
  catalog : Option Bytes := none
  schema : Option Bytes := none
  procedure : Option Bytes := none
  column : Option Bytes := none
  nameMatches : CatalogNameMatches := {}
deriving DecidableEq

inductive SpecialColumnsIdentifier where
  | rowIdentity | rowVersion
deriving DecidableEq

inductive SpecialColumnsScope where
  | currentRow | transaction | session
deriving DecidableEq

structure SpecialColumnsCatalogRequest where
  identifier : SpecialColumnsIdentifier := .rowIdentity
  scope : SpecialColumnsScope := .currentRow
  catalog : Option Bytes := none
  schema : Option Bytes := none
  table : Bytes
  requireNonNullable : Bool := false
  nameMatches : CatalogNameMatches := {}
deriving DecidableEq

inductive CatalogRequest where
  | tables (request : TablesCatalogRequest)
  | primaryKeys (request : PrimaryKeysCatalogRequest)
  | foreignKeys (request : ForeignKeysCatalogRequest)
  | columns (request : ColumnsCatalogRequest)
  | statistics (request : StatisticsCatalogRequest)
  | procedures (request : ProceduresCatalogRequest)
  | procedureColumns (request : ProcedureColumnsCatalogRequest)
  | specialColumns (request : SpecialColumnsCatalogRequest)
deriving DecidableEq

end Odbcpp.Database
