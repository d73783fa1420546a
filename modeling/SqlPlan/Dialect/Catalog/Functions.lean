import SqlPlan.Dialect

/-!
# Functions of the known dialects

The functions that all dialects share, and for each dialect those that it
writes differently, has beside the shared ones, or lacks.
-/

namespace SqlPlan.Catalog

/-- Entries by function name; a function without an entry is one the dialect lacks. -/
abbrev FunctionSection := List (String × Option FunctionEntry)

def commonFunctions : FunctionSection :=
  [("abs", some { template := "ABS({0})", returns := some .same }),
    ("sign", some { template := "SIGN({0})", returns := some (.type .integer) }),
    ("floor", some { template := "FLOOR({0})", returns := some (.type .integer) }),
    ("ceiling", some { template := "CEIL({0})", returns := some (.type .integer) }),
    ("round", some { template := "ROUND({*})", returns := some (.type .float) }),
    ("sqrt", some { template := "SQRT({0})", returns := some (.type .float) }),
    ("exp", some { template := "EXP({0})", returns := some (.type .float) }),
    ("log", some { template := "LN({0})", returns := some (.type .float) }),
    ("log10", some { template := "LOG10({0})", returns := some (.type .float) }),
    ("power", some { template := "POWER({0}, {1})", returns := some (.type .float) }),
    ("lower", some { template := "LOWER({0})", returns := some (.type .string) }),
    ("upper", some { template := "UPPER({0})", returns := some (.type .string) }),
    ("length", some { template := "LENGTH({0})", returns := some (.type .integer) }),
    ("trim", some { template := "TRIM({0})", returns := some (.type .string) }),
    ("ltrim", some { template := "LTRIM({0})", returns := some (.type .string) }),
    ("rtrim", some { template := "RTRIM({0})", returns := some (.type .string) }),
    ("substr", some { template := "SUBSTR({0}, {1}, {2})", returns := some (.type .string) }),
    ("replace", some { template := "REPLACE({0}, {1}, {2})", returns := some (.type .string) }),
    ("concat", some { template := "CONCAT({*})", returns := some (.type .string) }),
    ("coalesce", some { template := "COALESCE({*})", returns := some .same }),
    ("nullif", some { template := "NULLIF({0}, {1})", returns := some .same }),
    ("greatest", some { template := "GREATEST({*})", returns := some .same }),
    ("least", some { template := "LEAST({*})", returns := some .same }),
    ("if_else", some { template := "CASE WHEN {0} THEN {1} ELSE {2} END" }),
    ("year", some { template := "EXTRACT(YEAR FROM {0})", returns := some (.type .integer) }),
    ("month", some { template := "EXTRACT(MONTH FROM {0})", returns := some (.type .integer) }),
    ("day", some { template := "EXTRACT(DAY FROM {0})", returns := some (.type .integer) }),
    ("today", some { template := "CURRENT_DATE", returns := some (.type .date) }),
    ("now", some { template := "CURRENT_TIMESTAMP", returns := some (.type .timestamp) }),
    ("sd", some {
      template := "STDDEV_SAMP({0})",
      returns := some (.type .float), aggregate := some true }),
    ("var", some {
      template := "VAR_SAMP({0})",
      returns := some (.type .float), aggregate := some true })]

def postgresFunctions : FunctionSection :=
  [("median", some {
     template := "PERCENTILE_CONT(0.5) WITHIN GROUP (ORDER BY {0})",
     returns := some (.type .float), aggregate := some true }),
    ("str_detect", some { template := "({0} ~ {1})", returns := some (.type .boolean) }),
    ("paste", some { template := "CONCAT_WS(' ', {*})", returns := some (.type .string) })]

def sqliteFunctions : FunctionSection :=
  [("ceiling", none),
    ("concat", some { template := "({0} || {1})", returns := some (.type .string) }),
    ("greatest", some { template := "MAX({*})", returns := some .same }),
    ("least", some { template := "MIN({*})", returns := some .same }),
    ("year", some {
      template := "CAST(STRFTIME('%Y', {0}) AS INTEGER)",
      returns := some (.type .integer) }),
    ("month", some {
      template := "CAST(STRFTIME('%m', {0}) AS INTEGER)",
      returns := some (.type .integer) }),
    ("day", some {
      template := "CAST(STRFTIME('%d', {0}) AS INTEGER)",
      returns := some (.type .integer) }),
    ("today", some { template := "DATE('now')", returns := some (.type .date) }),
    ("now", some { template := "DATETIME('now')", returns := some (.type .timestamp) }),
    ("sd", none),
    ("var", none)]

def mysqlFunctions : FunctionSection :=
  [("length", some { template := "CHAR_LENGTH({0})", returns := some (.type .integer) }),
    ("log10", some { template := "LOG10({0})", returns := some (.type .float) }),
    ("year", some { template := "YEAR({0})", returns := some (.type .integer) }),
    ("month", some { template := "MONTH({0})", returns := some (.type .integer) }),
    ("day", some { template := "DAYOFMONTH({0})", returns := some (.type .integer) }),
    ("paste", some { template := "CONCAT_WS(' ', {*})", returns := some (.type .string) })]

def ansiFunctions : FunctionSection :=
  [("substr", some {
     template := "SUBSTRING({0} FROM {1} FOR {2})",
     returns := some (.type .string) }),
    ("concat", some { template := "({0} || {1})", returns := some (.type .string) }),
    ("greatest", none),
    ("least", none)]

def functionSections : List (String × FunctionSection) :=
  [("common", commonFunctions),
    ("postgres", postgresFunctions),
    ("sqlite", sqliteFunctions),
    ("mysql", mysqlFunctions),
    ("ansi", ansiFunctions)]

end SqlPlan.Catalog
