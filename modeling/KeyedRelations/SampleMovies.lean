import KeyedRelations.Store.Tables

/-!
# A sample database

Six small tables about movies.
-/

namespace KeyedRelations.SampleMovies

/-- A table with its rows. -/
structure Sample where
  name : String
  attributes : String
  domains : String
  key : String
  rows : List Tuple

def movieAttributes : String := "title year length genre studioName producerNo"

def movieDomains : String := "String Integer Integer String String Integer"

def movieRow (title : String) (year length : Int) (genre studio : String) (producer : Int) : Tuple :=
  [.text title, .int year, .int length, .text genre, .text studio, .int producer]

def starWars : Tuple := movieRow "Star_Wars" 1977 124 "sciFi" "Fox" 12345

def movie : Sample where
  name := "movie"
  attributes := movieAttributes
  domains := movieDomains
  key := "title year"
  rows :=
    [starWars, movieRow "Star_Wars_2" 1980 124 "sciFi" "Fox" 12345,
      movieRow "Rocky" 1985 200 "action" "Universal" 12125,
      movieRow "Rambo" 1978 100 "action" "Universal" 32355]

def cinema : Sample where
  name := "cinema"
  attributes := movieAttributes
  domains := movieDomains
  key := "title year"
  rows := [movieRow "Galaxy_Quest" 1999 104 "comedy" "DreamWorks" 67890, starWars]

def movieStar : Sample where
  name := "movieStar"
  attributes := "name address gender birthdate"
  domains := "String String Character String"
  key := "name"
  rows :=
    [[.text "Carrie_Fisher", .text "Hollywood", .text "F", .text "9/9/99"],
      [.text "Mark_Hamill", .text "Brentwood", .text "M", .text "8/8/88"],
      [.text "Harrison_Ford", .text "Beverly_Hills", .text "M", .text "7/7/77"]]

def starsIn : Sample where
  name := "starsIn"
  attributes := "starName movieTitle movieYear"
  domains := "String String Integer"
  key := "starName movieTitle movieYear"
  rows := [[.text "Carrie_Fisher", .text "Star_Wars", .int 1977]]

def movieExec : Sample where
  name := "movieExec"
  attributes := "name address certNo fee"
  domains := "String String Integer Double"
  key := "certNo"
  rows :=
    [[.text "Mark_Hamill", .text "Hollywood", .int 12345, .float (.nearest false 10000 0)],
      [.text "Harrison_Ford", .text "Beverly_Hills", .int 32355, .float (.nearest false 40001 (-1))]]

def studio : Sample where
  name := "studio"
  attributes := "name address presNo"
  domains := "String String Integer"
  key := "name"
  rows :=
    [[.text "Fox", .text "Los_Angeles", .int 7777],
      [.text "Universal", .text "Universal_City", .int 8888],
      [.text "DreamWorks", .text "Universal_City", .int 9999]]

def all : List Sample := [movie, cinema, movieStar, starsIn, movieExec, studio]

/-- Creates all tables in a session, and then fills them. -/
def create (session : SessionId) : Action (List TableId) := do
  let ids ← all.mapM fun s => Store.createTable session s.name s.attributes s.domains s.key
  (all.zip ids).forM fun (s, id) => s.rows.forM fun row =>
    discard (Store.insert id (.tuple row))
  return ids

end KeyedRelations.SampleMovies
