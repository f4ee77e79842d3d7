import ExprLang.Demo.Natives

/-! # The fields and methods of the sample, and its host -/

namespace ExprLang.Demo

def bookObjects : List Val := (List.finRange books.length).map fun i => .object (.book i)

/-- The names of the authors by their number, in the order of their first book. -/
def authors : List (Entry vocabulary) :=
  books.foldl (fun made b =>
    if made.any (·.key == number b.authorId) then made
    else made ++ [.mk (number b.authorId) (.string b.authorName)]) []

namespace Object

def field : Object → String → Option Val
  | library, "Address" => some (.object .address)
  | library, "Books" => some (.list bookObjects)
  | address, "Street" => some (.string "New Street")
  | address, "City" => some (.string "London")
  | book i, "Title" => some (.string (books.get i).title)
  | book i, "Author" => some (.object (.author i))
  | book i, "PublicationYear" => some (number (books.get i).year)
  | book i, "Price" => some (.float32 (.ofDecimal (books.get i).price))
  | author i, "Id" => some (number (books.get i).authorId)
  | author i, "Name" => some (.string (books.get i).authorName)
  | counter _ start, "Start" => some (.int64 start)
  | odd, "Nil" => some .nil
  | _, _ => none

end Object

open Outcome

def ofLibrary (params : List Param) (run : Inputs vocabulary params none → Outcome vocabulary) :
    Method vocabulary :=
  ⟨params, none, fun | Object.library => some fun _ => run | _ => none⟩

def libraryMethods : Table (Method vocabulary) :=
  .ofList
    [("GetAddress", ofLibrary [] fun () => result (.object .address)),
      ("GetBooks", ofLibrary [] fun () => result (.list bookObjects)),
      ("Authors", ofLibrary [] fun () => result (.map authors)),
      ("Book", ofLibrary [.string] fun (title, ()) =>
        match (List.finRange books.length).find? (fun i => (books.get i).title = title) with
        | some i => result (.object (.book i))
        | none => failed "Book not found")]

def authorMethods : Table (Method vocabulary) :=
  .ofList
    [("Books", ⟨[.object], none, fun
      | Object.author i => some fun _ (o, ()) =>
        match o with
        | Object.library => result (.list [.object (.book i)])
        | o => failed ("expected a Library, got " ++ o.typeName)
      | _ => none⟩)]

def ofCounter (params : List Param) (rest : Option Param)
    (run : Integer .int64 → Site → Inputs vocabulary params rest → Outcome vocabulary) :
    Method vocabulary :=
  ⟨params, rest, fun | Object.counter _ start => some (run start) | _ => none⟩

def counterMethods : Table (Method vocabulary) :=
  .ofList
    [("Plus", ofCounter [.int .int64] none fun start _ (n, ()) =>
        result (.int64 (start.add n))),
      ("Fail", ofCounter [] none fun _ _ () => failed "failed"),
      ("Panic", ofCounter [.string] none fun start _ (reason, ()) =>
        panicked (reason ++ start.text)),
      ("Nothing", ofCounter [] none fun _ _ () => results []),
      ("Pair", ofCounter [] none fun start _ () => results [.int64 start, .string "two"]),
      ("Triple", ofCounter [.string, .bool] none fun start _ (s, b, ()) =>
        results [.int64 start, .string s, .bool b]),
      ("Render", ofCounter [.expression] none fun _ _ (e, ()) => result (.string (source e))),
      ("Join", ofCounter [.string] (some .string) fun start _ (separator, rest) =>
        result (.string (start.text ++ ":" ++ String.intercalate separator rest))),
      ("Next", ofCounter [] none fun start site () =>
        result (.object (.counter (.made site) (start.add (.wrap _ 1))))),
      ("Maybe", ofCounter [.optional (.int .int64)] none fun start _ (n, ()) =>
        result (n.elim .nil fun n => .int64 (n.add start))),
      ("Name", ofCounter [] none fun _ _ () => result (.string "counter"))]

def Object.methods : Object → Table (Method vocabulary)
  | .library => libraryMethods
  | .author _ => authorMethods
  | .counter .. | .odd => counterMethods
  | .address | .book _ | .bare => .empty

def host : Host vocabulary where
  native := NativeName.native
  field := Object.field
  methods := Object.methods

end ExprLang.Demo
