import ModelContracts.World.Basic

/-!
The modules that exist in every world: the standard ones with the names that they define, and those
of which only the name matters.
-/

namespace ModelContracts

/-- A standard module: the classes that it declares, classes of other modules under a name of its
own, and the names of everything else. -/
structure StandardModule where
  name : String
  own : String
  foreign : List (String × ClassId)
  other : String

namespace StandardModule

def words (s : String) : List String := (Text.split ' ' s).filter (· ≠ "")

def toModule (m : StandardModule) : Module :=
  { name := m.name
    attributes := (words m.own).map (fun n => (n, Entity.cls ⟨m.name, n, 0⟩)) ++
      m.foreign.map (fun (n, c) => (n, Entity.cls c)) ++
      (words m.other).map (fun n => (n, Entity.other)) }

def all : List StandardModule := [
  ⟨"builtins",
    "bool memoryview bytearray bytes classmethod complex dict enumerate filter float " ++
      "frozenset property int list map object range reversed set slice staticmethod str super " ++
      "tuple type zip BaseException BaseExceptionGroup Exception GeneratorExit " ++
      "KeyboardInterrupt SystemExit ArithmeticError AssertionError AttributeError BufferError " ++
      "EOFError ImportError LookupError MemoryError NameError OSError ReferenceError " ++
      "RuntimeError StopAsyncIteration StopIteration SyntaxError SystemError TypeError " ++
      "ValueError Warning FloatingPointError OverflowError ZeroDivisionError BytesWarning " ++
      "DeprecationWarning EncodingWarning FutureWarning ImportWarning PendingDeprecationWarning " ++
      "ResourceWarning RuntimeWarning SyntaxWarning UnicodeWarning UserWarning BlockingIOError " ++
      "ChildProcessError ConnectionError FileExistsError FileNotFoundError InterruptedError " ++
      "IsADirectoryError NotADirectoryError PermissionError ProcessLookupError TimeoutError " ++
      "IndentationError IndexError KeyError ModuleNotFoundError NotImplementedError " ++
      "RecursionError UnboundLocalError UnicodeError BrokenPipeError ConnectionAbortedError " ++
      "ConnectionRefusedError ConnectionResetError TabError UnicodeDecodeError " ++
      "UnicodeEncodeError UnicodeTranslateError ExceptionGroup",
    [("EnvironmentError", ⟨"builtins", "OSError", 0⟩), ("IOError", ⟨"builtins", "OSError", 0⟩)],
    "abs all any ascii bin breakpoint callable chr compile delattr dir divmod eval exec " ++
      "format getattr globals hasattr hash hex id input isinstance issubclass iter aiter len " ++
      "locals max min next anext oct ord pow print repr round setattr sorted sum vars Ellipsis " ++
      "NotImplemented False True open quit exit copyright credits license help"⟩,
  ⟨"collections.abc",
    "Awaitable Coroutine AsyncIterable AsyncIterator AsyncGenerator Hashable Iterable " ++
      "Iterator Generator Reversible Sized Container Callable Collection Set MutableSet Mapping " ++
      "MutableMapping MappingView KeysView ItemsView ValuesView Sequence MutableSequence " ++
      "ByteString",
    [],
    ""⟩,
  ⟨"datetime",
    "timedelta date tzinfo time datetime timezone",
    [],
    "sys MINYEAR MAXYEAR UTC datetime_CAPI"⟩,
  ⟨"decimal",
    "Decimal Context DecimalTuple DecimalException Clamped Rounded Inexact Subnormal " ++
      "Underflow Overflow DivisionByZero FloatOperation InvalidOperation ConversionSyntax " ++
      "DivisionImpossible DivisionUndefined InvalidContext",
    [],
    "getcontext setcontext localcontext DefaultContext HAVE_CONTEXTVAR HAVE_THREADS " ++
      "BasicContext ExtendedContext MAX_PREC MAX_EMAX MIN_EMIN MIN_ETINY ROUND_UP ROUND_DOWN " ++
      "ROUND_CEILING ROUND_FLOOR ROUND_HALF_UP ROUND_HALF_DOWN ROUND_HALF_EVEN ROUND_05UP " ++
      "__version__"⟩,
  ⟨"enum",
    "Enum Flag ReprEnum nonmember member auto property EnumType IntEnum StrEnum FlagBoundary " ++
      "IntFlag EnumCheck verify",
    [("MappingProxyType", ⟨"builtins", "mappingproxy", 0⟩), ("DynamicClassAttribute", ⟨"types",
      "DynamicClassAttribute", 0⟩), ("EnumMeta", ⟨"enum", "EnumType", 0⟩)],
    "sys bltns reduce EJECT show_flag_values bin pickle_by_global_name pickle_by_enum_name " ++
      "STRICT CONFORM KEEP unique global_enum_repr global_flag_repr global_str global_enum " ++
      "CONTINUOUS NAMED_FLAGS UNIQUE"⟩,
  ⟨"fractions",
    "Fraction",
    [("Decimal", ⟨"decimal", "Decimal", 0⟩)],
    "math numbers operator re sys"⟩,
  ⟨"types",
    "SimpleNamespace DynamicClassAttribute GenericAlias UnionType",
    [("FunctionType", ⟨"builtins", "function", 0⟩), ("LambdaType", ⟨"builtins", "function", 0⟩),
      ("CodeType", ⟨"builtins", "code", 0⟩), ("MappingProxyType", ⟨"builtins",
      "mappingproxy", 0⟩), ("CellType", ⟨"builtins", "cell", 0⟩), ("GeneratorType",
      ⟨"builtins", "generator", 0⟩), ("CoroutineType", ⟨"builtins", "coroutine", 0⟩),
      ("AsyncGeneratorType", ⟨"builtins", "async_generator", 0⟩), ("MethodType",
      ⟨"builtins", "method", 0⟩), ("BuiltinFunctionType", ⟨"builtins",
      "builtin_function_or_method", 0⟩), ("BuiltinMethodType", ⟨"builtins",
      "builtin_function_or_method", 0⟩), ("WrapperDescriptorType", ⟨"builtins",
      "wrapper_descriptor", 0⟩), ("MethodWrapperType", ⟨"builtins", "method-wrapper", 0⟩),
      ("MethodDescriptorType", ⟨"builtins", "method_descriptor", 0⟩),
      ("ClassMethodDescriptorType", ⟨"builtins", "classmethod_descriptor", 0⟩),
      ("ModuleType", ⟨"builtins", "module", 0⟩), ("TracebackType", ⟨"builtins", "traceback",
      0⟩), ("FrameType", ⟨"builtins", "frame", 0⟩), ("GetSetDescriptorType", ⟨"builtins",
      "getset_descriptor", 0⟩), ("MemberDescriptorType", ⟨"builtins", "member_descriptor",
      0⟩), ("EllipsisType", ⟨"builtins", "ellipsis", 0⟩), ("NoneType", ⟨"builtins",
      "NoneType", 0⟩), ("NotImplementedType", ⟨"builtins", "NotImplementedType", 0⟩)],
    "new_class resolve_bases prepare_class coroutine"⟩,
  ⟨"typing",
    "Any ForwardRef TypeVar TypeVarTuple ParamSpecArgs ParamSpecKwargs ParamSpec Generic " ++
      "Protocol Annotated SupportsInt SupportsFloat SupportsComplex SupportsBytes SupportsIndex " ++
      "SupportsAbs SupportsRound NamedTupleMeta NewType IO BinaryIO TextIO io re",
    [("ABCMeta", ⟨"abc", "ABCMeta", 0⟩), ("defaultdict", ⟨"collections", "defaultdict", 0⟩),
      ("WrapperDescriptorType", ⟨"builtins", "wrapper_descriptor", 0⟩),
      ("MethodWrapperType", ⟨"builtins", "method-wrapper", 0⟩), ("MethodDescriptorType",
      ⟨"builtins", "method_descriptor", 0⟩), ("GenericAlias", ⟨"types", "GenericAlias", 0⟩),
      ("Text", ⟨"builtins", "str", 0⟩)],
    "abstractmethod collections contextlib functools operator stdlib_re sys types warnings " ++
      "NoReturn Never Self LiteralString ClassVar Final Union Optional Literal TypeAlias " ++
      "Concatenate TypeGuard Unpack EXCLUDED_ATTRIBUTES runtime_checkable cast assert_type " ++
      "get_type_hints get_origin get_args is_typeddict assert_never no_type_check " ++
      "no_type_check_decorator overload get_overloads clear_overloads final T KT VT T_co V_co " ++
      "VT_co T_contra CT_co AnyStr Hashable Awaitable Coroutine AsyncIterable AsyncIterator " ++
      "Iterable Iterator Reversible Sized Container Collection Callable AbstractSet MutableSet " ++
      "Mapping MutableMapping Sequence MutableSequence ByteString Tuple List Deque Set " ++
      "FrozenSet MappingView KeysView ItemsView ValuesView ContextManager AsyncContextManager " ++
      "Dict DefaultDict OrderedDict Counter ChainMap Generator AsyncGenerator Type NamedTuple " ++
      "TypedDict Required NotRequired TYPE_CHECKING Pattern Match reveal_type " ++
      "dataclass_transform"⟩,
  ⟨"uuid",
    "SafeUUID UUID",
    [("Enum", ⟨"enum", "Enum", 0⟩), ("int_", ⟨"builtins", "int", 0⟩), ("bytes_", ⟨"builtins",
      "bytes", 0⟩)],
    "os sys platform RESERVED_NCS RFC_4122 RESERVED_MICROSOFT RESERVED_FUTURE getnode uuid1 " ++
      "uuid3 uuid4 uuid5 NAMESPACE_DNS NAMESPACE_URL NAMESPACE_OID NAMESPACE_X500"⟩,
  ⟨"modelgen.contracts",
    "ModelNode ModelNodeEnabled",
    [],
    "full_type_name"⟩,
  ⟨"modelgen.markers",
    "Marker ClassMarker Browsable Obsolete Serializable Localizable Category Required Editor " ++
      "RefreshMode RefreshProperties TypeConverter Description LocalizedDescription " ++
      "DefaultValue NullValue ModelValueCalculator ModelValueCalculatorWrapper ModelReadOnly " ++
      "ReadOnly ClassName ModelAbstractClass ModelDisplayName",
    [("Enum", ⟨"enum", "Enum", 0⟩)],
    ""⟩,
  ⟨"modelgen.options",
    "BaseOptions AppearanceOptions FormatOptions TextOptions",
    [],
    ""⟩]

def importable : List String := words <|
      "modelgen modelgen.build modelgen.build.backend modelgen.build.builder " ++
      "modelgen.build.cache modelgen.cli modelgen.config modelgen.config.loader modelgen.core " ++
      "modelgen.core.config modelgen.exceptions modelgen.extensions modelgen.filtering " ++
      "modelgen.logging modelgen.reflection modelgen.synth modelgen.synth.references " ++
      "modelgen.synth.synthesizer modelgen.translate modelgen.translate.registry abc aifc " ++
      "argparse array ast asyncio atexit audioop base64 bdb binascii bisect builtins bz2 " ++
      "cProfile calendar cgi cgitb chunk cmath cmd code codecs codeop collections colorsys " ++
      "compileall concurrent configparser contextlib contextvars copy copyreg crypt csv ctypes " ++
      "curses dataclasses datetime dbm decimal difflib dis doctest email encodings ensurepip " ++
      "enum errno faulthandler fcntl filecmp fileinput fnmatch fractions ftplib functools gc " ++
      "genericpath getopt getpass gettext glob graphlib grp gzip hashlib heapq hmac html http " ++
      "idlelib imaplib imghdr importlib inspect io ipaddress itertools json keyword lib2to3 " ++
      "linecache locale logging lzma mailbox mailcap marshal math mimetypes mmap modulefinder " ++
      "multiprocessing netrc nis nntplib ntpath nturl2path numbers opcode operator optparse os " ++
      "ossaudiodev pathlib pdb pickle pickletools pipes pkgutil platform plistlib poplib posix " ++
      "posixpath pprint profile pstats pty pwd py_compile pyclbr pydoc pydoc_data pyexpat queue " ++
      "quopri random re readline reprlib resource rlcompleter runpy sched secrets select " ++
      "selectors shelve shlex shutil signal site smtplib sndhdr socket socketserver spwd " ++
      "sqlite3 sre_compile sre_constants sre_parse ssl stat statistics string stringprep struct " ++
      "subprocess sunau symtable sys sysconfig syslog tabnanny tarfile telnetlib tempfile " ++
      "termios textwrap threading time timeit tkinter token tokenize tomllib trace traceback " ++
      "tracemalloc tty turtle turtledemo types typing unicodedata unittest urllib uu uuid venv " ++
      "warnings wave weakref webbrowser wsgiref xdrlib xml xmlrpc zipapp zipfile zipimport zlib " ++
      "zoneinfo collections.abc concurrent.futures email.mime html.parser http.client " ++
      "http.server importlib.abc importlib.machinery importlib.metadata importlib.resources " ++
      "importlib.util json.decoder json.encoder logging.config logging.handlers " ++
      "multiprocessing.pool os.path unittest.mock urllib.error urllib.parse urllib.request " ++
      "xml.dom xml.etree xml.etree.ElementTree"

def packages : List String := words <|
      "modelgen modelgen.build modelgen.cli modelgen.config modelgen.core modelgen.logging " ++
      "modelgen.synth modelgen.translate asyncio collections concurrent ctypes curses dbm email " ++
      "encodings ensurepip html http idlelib importlib json lib2to3 logging multiprocessing " ++
      "pydoc_data re sqlite3 tkinter tomllib turtledemo unittest urllib venv wsgiref xml xmlrpc " ++
      "zoneinfo xml.etree xml.dom"

end StandardModule

end ModelContracts
