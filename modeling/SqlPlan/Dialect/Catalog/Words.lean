/-!
# Reserved words of the known dialects

The words that all dialects reserve, and for each dialect those that it
reserves beside them.
-/

namespace SqlPlan.Catalog

def commonWords : List String :=
  ["ALL", "AND", "ANY", "AS", "ASC", "BETWEEN", "BY", "CASE", "CAST", "CHECK", "COLLATE",
    "COLUMN", "CONSTRAINT", "CREATE", "CROSS", "CURRENT_DATE", "CURRENT_TIME",
    "CURRENT_TIMESTAMP", "DEFAULT", "DELETE", "DESC", "DISTINCT", "DROP", "ELSE", "END",
    "EXCEPT", "EXISTS", "FALSE", "FETCH", "FOR", "FOREIGN", "FROM", "FULL", "GRANT", "GROUP",
    "HAVING", "IN", "INNER", "INSERT", "INTERSECT", "INTO", "IS", "JOIN", "LEFT", "LIKE",
    "NATURAL", "NOT", "NULL", "ON", "OR", "ORDER", "OUTER", "PRIMARY", "REFERENCES", "RIGHT",
    "SELECT", "SET", "SOME", "TABLE", "THEN", "TO", "TRUE", "UNION", "UNIQUE", "UPDATE",
    "USING", "VALUES", "WHEN", "WHERE", "WITH"]

def postgresWords : List String :=
  ["ANALYSE", "ANALYZE", "ARRAY", "ASYMMETRIC", "BOTH", "CURRENT_CATALOG", "CURRENT_ROLE",
    "CURRENT_USER", "DEFERRABLE", "DO", "ILIKE", "INITIALLY", "LATERAL", "LEADING", "LIMIT",
    "LOCALTIME", "LOCALTIMESTAMP", "OFFSET", "ONLY", "OVERLAPS", "PLACING", "RETURNING",
    "SESSION_USER", "SIMILAR", "SYMMETRIC", "TRAILING", "USER", "VARIADIC", "VERBOSE",
    "WINDOW"]

def sqliteWords : List String :=
  ["ABORT", "ACTION", "AFTER", "ATTACH", "AUTOINCREMENT", "BEFORE", "BEGIN", "CASCADE",
    "COMMIT", "CONFLICT", "DEFERRABLE", "DEFERRED", "DETACH", "EACH", "ESCAPE", "EXCLUSIVE",
    "EXPLAIN", "GLOB", "IF", "IGNORE", "IMMEDIATE", "INDEX", "INDEXED", "INITIALLY", "INSTEAD",
    "ISNULL", "KEY", "LIMIT", "MATCH", "NO", "NOTNULL", "OF", "OFFSET", "PLAN", "PRAGMA",
    "QUERY", "RAISE", "RECURSIVE", "REGEXP", "REINDEX", "RELEASE", "RENAME", "REPLACE",
    "RESTRICT", "ROLLBACK", "ROW", "SAVEPOINT", "TEMP", "TEMPORARY", "TRANSACTION", "TRIGGER",
    "VACUUM", "VIEW", "VIRTUAL"]

def mysqlWords : List String :=
  ["ACCESSIBLE", "ADD", "ALTER", "ANALYZE", "BEFORE", "BIGINT", "BINARY", "BLOB", "BOTH",
    "CALL", "CASCADE", "CHANGE", "CHAR", "CHARACTER", "CONDITION", "CONTINUE", "CONVERT",
    "CURSOR", "DATABASE", "DATABASES", "DAY_HOUR", "DECIMAL", "DECLARE", "DELAYED", "DESCRIBE",
    "DIV", "DOUBLE", "DUAL", "EACH", "ELSEIF", "ENCLOSED", "ESCAPED", "EXIT", "EXPLAIN",
    "FLOAT", "FORCE", "FULLTEXT", "GENERATED", "GROUPS", "IF", "IGNORE", "INDEX", "INFILE",
    "INT", "INTEGER", "INTERVAL", "ITERATE", "KEY", "KEYS", "KILL", "LEADING", "LEAVE",
    "LIMIT", "LINES", "LOAD", "LOCK", "LONG", "LOOP", "MATCH", "MOD", "MODIFIES", "OPTIMIZE",
    "OPTION", "OUTFILE", "PARTITION", "PROCEDURE", "PURGE", "RANGE", "RANK", "READ", "REAL",
    "REGEXP", "RELEASE", "RENAME", "REPEAT", "REPLACE", "REQUIRE", "RESTRICT", "RETURN",
    "REVOKE", "RLIKE", "ROW", "ROWS", "SCHEMA", "SCHEMAS", "SEPARATOR", "SHOW", "SIGNAL",
    "SPATIAL", "SQL", "STARTING", "TERMINATED", "TRAILING", "TRIGGER", "UNDO", "UNLOCK",
    "UNSIGNED", "USAGE", "USE", "VARCHAR", "WHILE", "WINDOW", "WRITE", "XOR", "YEAR_MONTH",
    "ZEROFILL"]

def ansiWords : List String :=
  ["ABSOLUTE", "ACTION", "ALLOCATE", "ALTER", "ARE", "ASSERTION", "AT", "AUTHORIZATION", "AVG",
    "BEGIN", "BIT", "BOTH", "CASCADE", "CASCADED", "CATALOG", "CHAR", "CHARACTER", "CLOSE",
    "COMMIT", "CONNECT", "CONNECTION", "CONSTRAINTS", "CONTINUE", "CONVERT", "CORRESPONDING",
    "COUNT", "CURSOR", "DATE", "DAY", "DEALLOCATE", "DEC", "DECIMAL", "DECLARE", "DEFERRABLE",
    "DEFERRED", "DESCRIBE", "DESCRIPTOR", "DIAGNOSTICS", "DISCONNECT", "DOMAIN", "DOUBLE",
    "ESCAPE", "EXCEPTION", "EXEC", "EXECUTE", "EXTERNAL", "EXTRACT", "FIRST", "FLOAT", "FOUND",
    "GET", "GLOBAL", "GO", "GOTO", "HOUR", "IDENTITY", "IMMEDIATE", "INDICATOR", "INITIALLY",
    "INPUT", "INSENSITIVE", "INT", "INTEGER", "INTERVAL", "ISOLATION", "KEY", "LANGUAGE",
    "LAST", "LEADING", "LEVEL", "LOCAL", "LOWER", "MATCH", "MAX", "MIN", "MINUTE", "MODULE",
    "MONTH", "NAMES", "NATIONAL", "NEXT", "NO", "NULLIF", "NUMERIC", "OF", "ONLY", "OPEN",
    "OPTION", "OUTPUT", "OVERLAPS", "PAD", "PARTIAL", "POSITION", "PRECISION", "PREPARE",
    "PRESERVE", "PRIOR", "PRIVILEGES", "PROCEDURE", "PUBLIC", "READ", "REAL", "RELATIVE",
    "RESTRICT", "REVOKE", "ROLLBACK", "ROWS", "SCHEMA", "SCROLL", "SECOND", "SECTION",
    "SESSION", "SIZE", "SMALLINT", "SPACE", "SQL", "SUBSTRING", "SUM", "TEMPORARY", "TIME",
    "TIMESTAMP", "TRAILING", "TRANSACTION", "TRANSLATE", "TRANSLATION", "TRIM", "UNKNOWN",
    "UPPER", "USAGE", "USER", "VALUE", "VARCHAR", "VARYING", "VIEW", "WHENEVER", "WORK",
    "WRITE", "YEAR", "ZONE"]

def wordSections : List (String × List String) :=
  [("common", commonWords),
    ("postgres", postgresWords),
    ("sqlite", sqliteWords),
    ("mysql", mysqlWords),
    ("ansi", ansiWords)]

end SqlPlan.Catalog
