/-!
Globs: patterns for paths. A path is matched as its UTF-8 bytes. Whether the wildcards match a slash
is not part of the glob; it is chosen where the glob is used.
-/

namespace CallContext.Glob

inductive Token where
  | byte (value : UInt8)
  | anyByte
  | star
  /-- Any number of directories at the beginning of a path. -/
  | leadingDirectories
  /-- At least one slash, with any number of directories between two of them. -/
  | innerDirectories
  /-- Everything inside a directory. -/
  | contents
  | range (negated : Bool) (ranges : List (UInt8 × UInt8))
  | choice (alternatives : List (List Token))
  deriving Inhabited, Repr

def slash : UInt8 := 0x2f

def starEnds (strict : Bool) : List UInt8 → List (List UInt8)
  | [] => [[]]
  | b :: rest =>
    (b :: rest) :: if strict && b == slash then [] else starEnds strict rest

def afterSlashes : List UInt8 → List (List UInt8)
  | [] => []
  | b :: rest => if b == slash then rest :: afterSlashes rest else afterSlashes rest

def inClass (negated : Bool) (ranges : List (UInt8 × UInt8)) (b : UInt8) : Bool :=
  (ranges.any fun range => range.1 ≤ b && b ≤ range.2) != negated

mutual

def Token.isVoid : Token → Bool
  | .choice alternatives => allVoid alternatives
  | .byte _ | .anyByte | .star | .leadingDirectories | .innerDirectories | .contents
  | .range .. => false

def allVoid : List (List Token) → Bool
  | [] => true
  | first :: rest => isVoidGlob first && allVoid rest

def isVoidGlob : List Token → Bool
  | [] => true
  | first :: rest => first.isVoid && isVoidGlob rest

end

mutual

/-- What can be left of a path after a part of a glob has matched its beginning. Of several globs to
choose from, those in which nothing is written do not count. -/
def Token.rests (strict : Bool) : Token → List UInt8 → List (List UInt8)
  | .byte value, path => match path with
    | b :: rest => if b == value then [rest] else []
    | [] => []
  | .anyByte, path => match path with
    | b :: rest => if strict && b == slash then [] else [rest]
    | [] => []
  | .star, path => starEnds strict path
  | .leadingDirectories, path => path :: afterSlashes path
  | .innerDirectories, path => match path with
    | b :: rest => if b == slash then rest :: afterSlashes rest else []
    | [] => []
  | .contents, path => match path with
    | b :: rest => if b == slash then starEnds false rest else []
    | [] => []
  | .range negated ranges, path => match path with
    | b :: rest => if inClass negated ranges b then [rest] else []
    | [] => []
  | .choice alternatives, path =>
    if allVoid alternatives then [path] else restsOfAny strict alternatives path

def restsOfAny (strict : Bool) : List (List Token) → List UInt8 → List (List UInt8)
  | [], _ => []
  | first :: rest, path =>
    (if isVoidGlob first then [] else restsOfAll strict first [path]) ++ restsOfAny strict rest path

def restsOfAll (strict : Bool) : List Token → List (List UInt8) → List (List UInt8)
  | [], paths => paths
  | first :: rest, paths =>
    -- Kept once each, or a row of stars would multiply what is left.
    restsOfAll strict rest (paths.flatMap fun path => first.rests strict path).eraseDups

end

end CallContext.Glob

namespace CallContext

structure Glob where
  tokens : List Glob.Token
  deriving Inhabited, Repr

/-- Whether a glob matches a whole path. The glob of two stars matches every path. -/
def Glob.accepts (glob : Glob) (strict : Bool) (path : String) : Bool :=
  match glob.tokens with
  | [.leadingDirectories] => true
  | tokens => (Glob.restsOfAll strict tokens [path.toUTF8.toList]).any (·.isEmpty)

end CallContext
