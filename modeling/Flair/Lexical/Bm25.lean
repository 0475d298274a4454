import Flair.Foundations.InsertionMap
import Flair.Foundations.Objects
import Mathlib.Algebra.Order.Field.Basic
import Mathlib.Data.List.Sort

/-! BM25 over a corpus that is tokenized for each query. Follows `buildBM25` and `tokenize`
of `resources/bm25.ts`; arithmetic is exact, over any ordered field, and the inverse
document frequency is a function of the document count and the document frequency.
-/

namespace Flair.Lexical

open Dynamic InsertionMap

-- Tokens

def stopWords : List String := [
  "a", "an", "the", "and", "or", "but", "of", "to", "in", "on", "at", "for", "with", "from",
  "by", "as", "is", "are", "was", "were", "be", "been", "being", "this", "that", "these",
  "those", "it", "its", "do", "does", "did", "so", "if", "then", "than", "when", "how",
  "what", "why", "who", "whom", "which", "while", "i", "you", "he", "she", "we", "they",
  "them", "his", "her", "our", "your", "their", "not", "no", "yes", "can", "will", "would",
  "should", "could", "may", "might", "have", "has", "had", "get", "got", "into", "out",
  "over", "under", "again", "about", "up", "down", "off", "all", "any", "each"]

/-- `toLowerCase` as far as ASCII letters come out of it: the Kelvin sign becomes a `k`, and
a capital I with a dot an `i` with a combining dot after it.
-/
def lowerCase (c : Char) : List Char :=
  if c = '\u212A' then ['k']
  else if c = '\u0130' then ['i', '\u0307']
  else [c.toLower]

/-- A character of the class `[a-z0-9]`. -/
def isTokenChar (c : Char) : Bool := ('a' ≤ c && c ≤ 'z') || ('0' ≤ c && c ≤ '9')

/-- The maximal runs of token characters, the last one still open. -/
def tokenRuns : (current : List Char) → List Char → List (List Char)
  | run, [] => [run.reverse]
  | run, c :: rest =>
    if isTokenChar c then tokenRuns (c :: run) rest else run.reverse :: tokenRuns [] rest

def tokenize (text : String) : List String :=
  ((tokenRuns [] (text.toList.flatMap lowerCase)).map String.ofList).filter fun token =>
    decide (1 < token.length) && !stopWords.contains token

/-- `content || ""`, for a content that is a string when it is there. -/
def contentText (content : Option Value) : String := (asString content).getD ""

def termFrequencies (tokens : List String) : InsertionMap String Nat :=
  tokens.foldl (fun tf token => bump tf token 1) []

-- Scores

section

variable {K : Type*} [Field K] [LinearOrder K]

def k1 : K := 6 / 5

def b : K := 3 / 4

/-- `value || 1` -/
def orOne (value : K) : K := if value = 0 then 1 else value

/-- What a term that occurs `f` times adds to the score of a document of this length. -/
def termScore (idf : K) (f dl : Nat) (lengthNorm : K) : K :=
  idf * ((f * (k1 + 1)) / (f + k1 * (1 - b + b * (dl / lengthNorm))))

structure BM25Doc where
  id : String
  content : Option Value

structure BM25Scored (K : Type*) where
  id : String
  score : K

def RanksBefore (left right : BM25Scored K) : Prop :=
  right.score < left.score ∨ (left.score = right.score ∧ ¬ textLt right.id left.id)

instance : DecidableRel (RanksBefore : BM25Scored K → BM25Scored K → Prop) :=
  fun _ _ => inferInstanceAs (Decidable (_ ∨ _))

def docTokens (doc : BM25Doc) : List String := tokenize (contentText doc.content)

def documentFrequencies (docs : List BM25Doc) : InsertionMap String Nat :=
  docs.foldl
    (fun df doc =>
      (termFrequencies (docTokens doc)).foldl (fun df entry => bump df entry.1 1) df) []

def averageLength (docs : List BM25Doc) : K :=
  (docs.map fun doc => (docTokens doc).length).sum / orOne (docs.length : K)

def docScore (idf : Int → Nat → K) (docs : List BM25Doc) (qToks : List String)
    (doc : BM25Doc) : K :=
  qToks.foldl
    (fun score term =>
      match get (termFrequencies (docTokens doc)) term with
      | none | some 0 => score
      | some f =>
        score + termScore
          (((get (documentFrequencies docs) term).map (idf docs.length)).getD 0) f
          (docTokens doc).length (orOne (averageLength docs))) 0

/-- `buildBM25(docs).rank(query)` -/
def bm25Rank (idf : Int → Nat → K) (docs : List BM25Doc) (query : String)
    : List (BM25Scored K) :=
  (docs.map fun doc =>
    { id := doc.id, score := docScore idf docs (tokenize query).eraseDups doc }).insertionSort
      RanksBefore

end

end Flair.Lexical
