import ExprLang.Native
import ExprLang.Number.Binary.Decimal

/-! # A sample vocabulary

A small application: a library of books, and counters. Its native functions take parameters of every
kind, and end in every way that a body can end.
-/

namespace ExprLang.Demo

structure BookRecord where
  title : String
  year : Int
  price : Decimal
  authorId : Int
  authorName : String

def books : List BookRecord :=
  [⟨"Sense & Sensibility", 1811, ⟨499, -2⟩, 1, "Jane Austen"⟩,
    ⟨"Pride & Prejudice", 1813, ⟨699, -2⟩, 1, "Jane Austen"⟩,
    ⟨"1984", 1949, ⟨999, -2⟩, 2, "George Orwell"⟩,
    ⟨"Animal Farm", 1945, ⟨899, -2⟩, 2, "George Orwell"⟩,
    ⟨"The Lion, the With & the Wardrobe", 1950, ⟨549, -2⟩, 3, "C.S. Lewis"⟩]

/-- What tells counters of one number apart: a name, or the site of the call that made them. -/
inductive Origin where
  | named (name : String)
  | made (site : Site)
deriving DecidableEq

/-- The objects. Each book has an author object of its own. -/
inductive Object where
  | library
  | address
  | book (i : Fin books.length)
  | author (i : Fin books.length)
  | counter (origin : Origin) (start : Integer .int64)
  | bare
  | odd
deriving DecidableEq

namespace Object

def typeName : Object → String
  | library => "Library"
  | address => "Address"
  | book _ => "Book"
  | author _ => "Author"
  | counter .. => "Counter"
  | bare => "Bare"
  | odd => "int64"

def shown : Object → String
  | library => "<Library " ++ toString books.length ++ ">"
  | address => "<Address London>"
  | book i => "<Book " ++ books[i].title ++ ">"
  | author i => "<Author " ++ books[i].authorName ++ ">"
  | counter _ start => "<Counter " ++ start.text ++ ">"
  | bare => "<Bare>"
  | odd => "<Odd>"

end Object

inductive NativeName where
  | one
  | pair
  | triple
  | unit
  | text
  | fail
  | checked
  | failPair
  | boom
  | boomStatic
  | boomAny
  | echo (p : Param)
  | optI64
  | optExpr
  | optObject
  | restI64
  | restExpr
  | restOpt
  | restAny
  | atLeast2
  | six
  | render
  | evalWith
  | failExprLast
  | mixed
deriving DecidableEq

def vocabulary : Vocabulary where
  Object := Object
  Native := NativeName
  typeName := Object.typeName
  shown := Object.shown
  decideObject := inferInstance
  decideNative := inferInstance

def natives : List (String × NativeName) :=
  [("one", .one), ("pair", .pair), ("triple", .triple), ("unit", .unit), ("text", .text),
    ("fail", .fail), ("checked", .checked), ("failPair", .failPair), ("boom", .boom),
    ("boomStatic", .boomStatic), ("boomAny", .boomAny), ("echoAny", .echo .any),
    ("echoBool", .echo .bool), ("echoString", .echo .string), ("echoI8", .echo (.int .int8)),
    ("echoI16", .echo (.int .int16)), ("echoI32", .echo (.int .int32)),
    ("echoI64", .echo (.int .int64)), ("echoU8", .echo (.int .uint8)),
    ("echoU16", .echo (.int .uint16)), ("echoU32", .echo (.int .uint32)),
    ("echoU64", .echo (.int .uint64)), ("echoF32", .echo .float32), ("echoF64", .echo .float64),
    ("echoList", .echo .list), ("echoMap", .echo .map), ("echoEntry", .echo .entry),
    ("echoObject", .echo .object), ("echoExpr", .echo .expression), ("optI64", .optI64),
    ("optExpr", .optExpr), ("optObject", .optObject), ("restI64", .restI64),
    ("restExpr", .restExpr), ("restOpt", .restOpt), ("restAny", .restAny),
    ("atLeast2", .atLeast2), ("six", .six), ("render", .render), ("evalWith", .evalWith),
    ("failExprLast", .failExprLast), ("mixed", .mixed)]

end ExprLang.Demo
