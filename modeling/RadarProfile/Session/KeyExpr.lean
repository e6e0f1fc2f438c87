import RadarProfile.Session.Gapped

set_option autoImplicit false

/-! # Key expressions

Services and published values are addressed by key expressions: one or more chunks with
slashes between them. No chunk is empty, so there is no slash at either end and no two in
a row. A star stands for one chunk, two for any number of chunks, and a dollar with a star
for any part of a chunk; in these three forms only may stars and dollars occur. Question
marks and hashes do not occur at all. Of several spellings of one set of keys only the
plainest is admitted.

A chunk that begins with an at sign stands apart: it overlaps only a chunk of the same
spelling, and no star takes it in. -/

namespace RadarProfile.KeyExpr

def chunks (t : Text) : List Text := t.splitOnP (· == '/')

/-- The stars and dollars of a chunk with other characters: each star follows a dollar and
each dollar is followed by a star, and no such pair follows another. -/
def isMixed : Text → Bool
  | [] => true
  | '$' :: '*' :: '$' :: _ => false
  | '$' :: '*' :: rest => isMixed rest
  | c :: rest => !("$*?#".toList.contains c) && isMixed rest

def isChunk (chunk : Text) : Bool :=
  chunk == ['*'] || chunk == ['*', '*'] ||
    (!chunk.isEmpty && chunk != ['$', '*'] && isMixed chunk)

/-- No chunk that stands for any number of chunks is followed by one that is a star or
two. -/
def isOrdered : List Text → Bool
  | [] => true
  | [_] => true
  | first :: second :: rest =>
    !(first == ['*', '*'] && second.head? == some '*') && isOrdered (second :: rest)

def isValid (t : Text) : Bool := (chunks t).all isChunk && isOrdered (chunks t)

/-! ## Overlap -/

/-- The chunk stands apart from wildcards. -/
def isApart (chunk : Text) : Bool := chunk.head? == some '@'

/-- The characters of a chunk, with a gap for each star. -/
def charRow : Text → Gapped.Row Char
  | [] => []
  -- the dollar before a star belongs to it
  | '$' :: '*' :: rest => none :: charRow rest
  | '*' :: rest => none :: charRow rest
  | c :: rest => some c :: charRow rest

def chunksOverlap (a b : Text) : Bool :=
  a == b ||
    (!isApart a && !isApart b &&
      Gapped.overlap (· == ·) (fun _ => true) (charRow a) (charRow b))

/-- The chunks of a key expression, with a gap for each double star. -/
def chunkRow (t : Text) : Gapped.Row Text :=
  (chunks t).map fun chunk => if chunk = ['*', '*'] then none else some chunk

def overlap (a b : Text) : Bool :=
  Gapped.overlap chunksOverlap (fun chunk => !isApart chunk) (chunkRow a) (chunkRow b)

theorem overlap_self (t : Text) : overlap t t = true :=
  Gapped.overlap_self _ (fun chunk => by simp [chunksOverlap]) _

/-- The key expression that overlaps every other, chunks apart left out. -/
def everything : Text := "**".toList

/-! ## Slashes -/

def trimSlashes (t : Text) : Text :=
  ((t.dropWhile (· == '/')).reverse.dropWhile (· == '/')).reverse

end RadarProfile.KeyExpr
