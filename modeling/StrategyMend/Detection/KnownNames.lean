/-!
# Names that are always defined

The names that Python defines by itself, and the names that a strategy may use without binding them
because its framework provides them.
-/

set_option autoImplicit false

namespace StrategyMend.Detection

/-- Functions, types and constants that are built into Python. -/
def builtinNames : List String :=
  ["abs", "aiter", "all", "anext", "any", "ascii", "bin", "bool", "breakpoint", "bytearray",
    "bytes", "callable", "chr", "classmethod", "compile", "complex", "delattr", "dict", "dir",
    "divmod", "enumerate", "eval", "exec", "filter", "float", "format", "frozenset", "getattr",
    "globals", "hasattr", "hash", "help", "hex", "id", "input", "int", "isinstance", "issubclass",
    "iter", "len", "list", "locals", "map", "max", "memoryview", "min", "next", "object", "oct",
    "open", "ord", "pow", "print", "property", "range", "repr", "reversed", "round", "set",
    "setattr", "slice", "sorted", "staticmethod", "str", "sum", "super", "tuple", "type", "vars",
    "zip", "True", "False", "None", "NotImplemented", "Ellipsis", "exit", "quit", "copyright",
    "credits", "license"]

/-- Exceptions and warnings that are built into Python. -/
def exceptionNames : List String :=
  ["BaseException", "Exception", "ArithmeticError", "AssertionError", "AttributeError",
    "BufferError", "EOFError", "FloatingPointError", "GeneratorExit", "ImportError",
    "ModuleNotFoundError", "IndexError", "KeyError", "KeyboardInterrupt", "LookupError",
    "MemoryError", "NameError", "NotImplementedError", "OSError", "IOError", "EnvironmentError",
    "OverflowError", "RecursionError", "ReferenceError", "RuntimeError", "StopIteration",
    "StopAsyncIteration", "SyntaxError", "IndentationError", "TabError", "SystemError",
    "SystemExit", "TypeError", "UnboundLocalError", "UnicodeError", "UnicodeDecodeError",
    "UnicodeEncodeError", "UnicodeTranslateError", "ValueError", "ZeroDivisionError",
    "ConnectionError", "TimeoutError", "FileNotFoundError", "PermissionError", "Warning",
    "UserWarning", "DeprecationWarning", "RuntimeWarning", "ExceptionGroup", "BaseExceptionGroup"]

/-- Names that the framework of a strategy provides. -/
def frameworkNames : List String := ["self", "cls", "bt", "backtrader"]

/-- Whether a name is defined wherever it is used. -/
def isAlwaysDefined (name : String) : Bool :=
  builtinNames.contains name || exceptionNames.contains name || frameworkNames.contains name

end StrategyMend.Detection
