/-!
The types of the core namespace that every unit sees without an import.
-/

namespace SourceModel

def coreTypes : List String :=
  ["Appendable", "AutoCloseable", "Boolean", "Byte", "Character", "CharSequence", "Class",
    "ClassLoader", "Cloneable", "Comparable", "Deprecated", "Double", "Enum", "Error", "Exception",
    "Float", "FunctionalInterface", "Integer", "Iterable", "Long", "Math", "Number", "Object",
    "Override", "Package", "Process", "ProcessBuilder", "Readable", "Runnable", "Runtime",
    "SafeVarargs", "Short", "StackTraceElement", "String", "StringBuffer", "StringBuilder",
    "SuppressWarnings", "Thread", "ThreadGroup", "ThreadLocal", "Throwable", "Void"]

/-- Whether a simple name is that of a core type. -/
def isCoreType (name : String) : Bool :=
  coreTypes.contains name

end SourceModel
