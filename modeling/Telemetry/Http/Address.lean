import Telemetry.Text.Percent

/-!
# Addresses

Where the resources of a remote server are: below the path of the server's own URL. A resource's
path is put behind that path. Segments that are dots are resolved: `.` stands for the place where
it is, and `..` for the place above, up to the root.
-/

namespace Telemetry.Http

/-- Characters that a path may hold as they are. -/
def isPathChar (c : Char) : Bool :=
  Text.isUnreserved c || "!$&'()*+,;=:/[]@".toList.contains c

/-- A path with every byte percent-encoded that may not stand in it; what is percent-encoded
already stays. -/
def encodePath : List Char → List Char
  | '%' :: a :: b :: rest =>
    if (Text.hexValue? a).isSome && (Text.hexValue? b).isSome then '%' :: a :: b :: encodePath rest
    else Text.percentByte 37 ++ encodePath (a :: b :: rest)
  | c :: rest =>
    (if isPathChar c then [c] else (Text.utf8Bytes c).flatMap Text.percentByte) ++ encodePath rest
  | [] => []

/-- What follows the two slashes in front of a URL's host. -/
def afterSlashes : List Char → List Char
  | '/' :: '/' :: rest => rest
  | _ :: rest => afterSlashes rest
  | [] => []

/-- The path of a URL, with a slash at its end. -/
def basePath (url : String) : String :=
  let path := (((afterSlashes url.toList).dropWhile fun c => !"/?#".toList.contains c).takeWhile
    fun c => c != '?' && c != '#')
  String.ofList (encodePath (if path.getLast? = some '/' then path else path ++ ['/']))

/-- Resolves the segments that are dots; `kept` are the segments before them. -/
def resolveDots (kept : List (List Char)) : List (List Char) → List (List Char)
  | [] => kept
  | segment :: rest =>
    if segment = ['.'] then resolveDots kept rest
    else if segment = ['.', '.'] then resolveDots (if kept = [[]] then kept else kept.dropLast) rest
    else resolveDots (kept ++ [segment]) rest

/-- The path of a resource below a path that ends with a slash. -/
def resourcePath (base resource : String) : String :=
  let path := Text.joinWith "/"
    ((resolveDots [] (Text.splitAt '/' (base ++ resource).toList)).map String.ofList)
  if path = "" then "/" else path

end Telemetry.Http
