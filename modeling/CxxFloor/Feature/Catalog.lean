/-
# Catalogs of features

A catalog lists features in an order that also breaks ties between findings at
one place.  No id occurs twice, which is part of the type: a catalog is made
of a list by `Catalog.ofList`, and a repeated id is refused there.

The standard catalog holds the language features of C++23 that can be told
from a source without knowing its types.
-/
import CxxFloor.Error
import CxxFloor.Fragment.Basic

namespace CxxFloor

/-- A feature of the language and the standard that introduced it. -/
structure Descriptor where
  id : String
  minStandard : Int
  description : String := ""
  /-- The kinds of fragment that may show it. -/
  kinds : List FragmentKind := []
  /-- Of the features that share a slot, a fragment shows at most one. -/
  slot : Option String := none
  sample : String := ""
deriving DecidableEq, Repr, Inhabited

/-- Features in order, each id once. -/
structure Catalog where
  entries : List Descriptor
  nodup : (entries.map (·.id)).Nodup

/-- The first id that occurs a second time. -/
def firstRepeated? : (seen ids : List String) → Option String
  | _, [] => none
  | seen, id :: ids => if seen.contains id then some id else firstRepeated? (id :: seen) ids

namespace Catalog

/-- The catalog of these features, in this order. -/
def ofList (entries : List Descriptor) : Except Refusal Catalog :=
  if h : (entries.map (·.id)).Nodup then .ok ⟨entries, h⟩
  else .error (.duplicateFeature ((firstRepeated? [] (entries.map (·.id))).getD ""))

def find? (c : Catalog) (id : String) : Option Descriptor := c.entries.find? (·.id == id)

def position? (c : Catalog) (id : String) : Option Nat := c.entries.findIdx? (·.id == id)

/-- The feature with this id, which has to be in the catalog. -/
def lookup (c : Catalog) (id : String) : Except Refusal Descriptor :=
  match c.find? id with
  | some d => .ok d
  | none => .error (.unknownFeature id)

/-- The position of the feature with this id, which has to be in the catalog. -/
def position (c : Catalog) (id : String) : Except Refusal Nat :=
  match c.position? id with
  | some i => .ok i
  | none => .error (.unknownFeature id)

def contains (c : Catalog) (id : String) : Bool := (c.find? id).isSome

def ids (c : Catalog) : List String := c.entries.map (·.id)

def size (c : Catalog) : Nat := c.entries.length

def summary (c : Catalog) : String := "Catalog(" ++ toString c.size ++ " features)"

end Catalog

/-- The features of C++23 that a source shows by itself. -/
def standardFeatures : List Descriptor :=
  [{ id := "compile-time-branch-marker"
     minStandard := 23
     description := "if consteval / if !consteval branch"
     kinds := [.branch]
     slot := none
     sample := "if consteval \x7b return 0; \x7d" },
   { id := "conditional-explicit"
     minStandard := 23
     description := "explicit specifier with a boolean condition"
     kinds := [.declaration]
     slot := none
     sample := "explicit(N > 1) Vec(int n);" },
   { id := "copy-initialized-deduced-parameter"
     minStandard := 23
     description := "auto(x) / auto\x7bx\x7d decay-copy expression"
     kinds := [.call]
     slot := none
     sample := "consume(auto(value));" },
   { id := "static-call-operator"
     minStandard := 23
     description := "static operator() or static lambda"
     kinds := [.operatorDefinition, .captureList]
     slot := some "operator-static"
     sample := "static int operator()(int x);" },
   { id := "multi-argument-subscript-operator"
     minStandard := 23
     description := "operator[] taking more than one index"
     kinds := [.operatorDefinition]
     slot := some "subscript-arity"
     sample := "T& operator[](size_t i, size_t j);" },
   { id := "deduced-return-type-as-parameter"
     minStandard := 23
     description := "explicit object parameter of deduced type (deducing this)"
     kinds := [.declaration, .captureList]
     slot := some "explicit-object-parameter"
     sample := "auto&& get(this auto&& self);" },
   { id := "incomplete-type-size-query-in-constant-context"
     minStandard := 23
     description := "sizeof/alignof of an incomplete record in a constant context"
     kinds := [.sizeQuery]
     slot := none
     sample := "struct S; static_assert(sizeof(S) > 0);" },
   { id := "deduction-guide-for-restricted-constructor"
     minStandard := 23
     description := "explicit deduction guide naming a class template specialization"
     kinds := [.declaration]
     slot := none
     sample := "explicit Box(int) -> Box<long>;" },
   { id := "enclosing-instance-value-capture"
     minStandard := 23
     description := "*this captured by value in a lambda with an explicit object parameter"
     kinds := [.captureList]
     slot := none
     sample := "[*this](this auto self) \x7b return self; \x7d" },
   { id := "exception-handling-in-constant-evaluation"
     minStandard := 23
     description := "try block in a constexpr or consteval function"
     kinds := [.tryBlock]
     slot := none
     sample := "constexpr int f() \x7b try \x7b return 1; \x7d catch (...) \x7b return 0; \x7d \x7d" },
   { id := "default-initializer-in-variant-record"
     minStandard := 23
     description := "default member initializer on a union member"
     kinds := [.unionMember]
     slot := none
     sample := "union U \x7b int a = 0; float b; \x7d;" },
   { id := "unconditional-static-assertion-without-message"
     minStandard := 23
     description := "static_assert(false) without message inside a template"
     kinds := [.staticAssertion]
     slot := none
     sample := "template <class T> void f() \x7b static_assert(false); \x7d" },
   { id := "static-subscript-operator"
     minStandard := 23
     description := "static operator[]"
     kinds := [.operatorDefinition]
     slot := some "operator-static"
     sample := "static int operator[](int i);" },
   { id := "zero-argument-subscript-operator"
     minStandard := 23
     description := "operator[] taking no index"
     kinds := [.operatorDefinition]
     slot := some "subscript-arity"
     sample := "T& operator[]();" },
   { id := "explicit-object-parameter"
     minStandard := 23
     description := "explicit object parameter of a concrete type"
     kinds := [.declaration, .captureList]
     slot := some "explicit-object-parameter"
     sample := "void f(this S& self);" },
   { id := "size-literal-suffix"
     minStandard := 23
     description := "z / uz integer literal suffix"
     kinds := [.literal]
     slot := none
     sample := "auto n = 42uz;" },
   { id := "extended-floating-literal-suffix"
     minStandard := 23
     description := "f16 / f32 / f64 / f128 / bf16 floating literal suffix"
     kinds := [.literal]
     slot := none
     sample := "auto x = 1.5f16;" },
   { id := "elifdef-directive"
     minStandard := 23
     description := "#elifdef / #elifndef preprocessor directive"
     kinds := [.directive]
     slot := none
     sample := "#elifdef FOO" },
   { id := "warning-directive"
     minStandard := 23
     description := "#warning preprocessor directive"
     kinds := [.directive]
     slot := none
     sample := "#warning \"deprecated\"" },
   { id := "assume-attribute"
     minStandard := 23
     description := "[[assume(expr)]] attribute"
     kinds := [.attributeGroup]
     slot := none
     sample := "[[assume(n > 0)]];" },
   { id := "parameterless-lambda-specifiers"
     minStandard := 23
     description := "lambda specifiers without a parameter list"
     kinds := [.captureList]
     slot := none
     sample := "[x] mutable \x7b return ++x; \x7d" },
   { id := "label-at-end-of-compound-statement"
     minStandard := 23
     description := "label immediately before a closing brace"
     kinds := [.label]
     slot := none
     sample := "void f() \x7b goto end; end: \x7d" }]

def standardCatalog : Catalog := ⟨standardFeatures, by decide +kernel⟩

/-- The catalog that is used where this one is given: an empty one counts as none, and the standard
one takes its place. -/
def Catalog.orStandard (c : Catalog) : Catalog := if c.entries.isEmpty then standardCatalog else c

end CxxFloor
