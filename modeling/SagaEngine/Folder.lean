import SagaEngine.Table
import SagaEngine.Text.Split

/-! The files of a folder by their paths from there, and what a path leads to. A path may make detours
through folders that hold some of the files, and nothing is known of what lies above. -/

namespace SagaEngine

def pathParts (path : String) : List String :=
  let parts := ((Text.split '/' path.toList).filter fun p => !p.isEmpty && p != ['.']).map String.ofList
  if path.toList.head? == some '/' then "/" :: parts else parts

def joinPath : List String → String
  | "/" :: parts => "/" ++ "/".intercalate parts
  | parts => "/".intercalate parts

def lastPart (path : String) : String :=
  String.ofList ((Text.split '/' path.toList).getLast?.getD [])

def namedPath? (path : String) : Option String :=
  let parts := (Text.split '/' path.toList).reverse.dropWhile fun p => p.isEmpty || p == ['.']
  match parts with
  | [] | ['.', '.'] :: _ => none
  | _ => some (String.ofList (['/'].intercalate parts.reverse))

abbrev Folder := Table String

namespace Folder

def hasFolder (f : Folder) (parts : List String) : Bool :=
  f.any fun (path, _) => parts.isPrefixOf (pathParts path) && parts != pathParts path

/-- Where a path leads from a place; both are lists of parts, those of the place last first. -/
def walk? (f : Folder) (here : List String) : List String → Option (List String)
  | [] => some here.reverse
  | ".." :: rest => match here with
    | [] | ["/"] => none
    | _ :: above => walk? f above rest
  | part :: rest =>
    if rest.isEmpty || f.hasFolder (part :: here).reverse then walk? f (part :: here) rest else none

def read? (f : Folder) (path : String) : Option String :=
  (f.get? path).or <|
    if lastPart path = "" ∨ lastPart path = "." then none
    else (f.walk? [] (pathParts path)).bind fun parts => f.get? (joinPath parts)

end Folder

end SagaEngine
