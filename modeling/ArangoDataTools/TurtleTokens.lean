import ArangoDataTools.TurtleSyntax

namespace ArangoDataTools.Turtle
open TextScan

section Spelling

inductive Gap : List Char → Prop where
  | nil : Gap []
  | space {c : Char} {gap : List Char} : isWhitespace c = true → Gap gap → Gap (c :: gap)
  | comment {body gap : List Char} : '\n' ∉ body → Gap gap → Gap ('#' :: body ++ '\n' :: gap)

def echar : Char → Option Char
  | 't' => some '\t'
  | 'b' => some '\x08'
  | 'n' => some '\n'
  | 'r' => some '\r'
  | 'f' => some '\x0C'
  | '"' => some '"'
  | '\'' => some '\''
  | '\\' => some '\\'
  | _ => none

def LabelChars (label : List Char) : Prop := ∀ c ∈ label, isPnPrefixChar c = true ∧ isWhitespace c = false

def LabelForm (label : List Char) : Prop := LabelChars label ∧ ∀ c ∈ label.head?,
    isAsciiAlphabetic c = true ∨ 0x7F < c.toNat

def NameForm (name : List Char) : Prop :=
  (∀ c ∈ name, isPnLocalChar c = true ∧ isWhitespace c = false) ∧ name.getLast? ≠ some '.'

def localEscapes : List Char :=
  ['_','~','.','-','!','$','&','\'','(',')','*','+',',',';','=','/','?','#','@','%']

def PieceForm (piece : Bool × Char) : Prop := if piece.1 then piece.2 ∈ localEscapes
    else isPnLocalChar piece.2 = true

def pieceText (piece : Bool × Char) : List Char := if piece.1 then ['\\',piece.2] else [piece.2]

inductive IriText : IriForm → List Char → Prop where
  | reference {raw body : List Char} : Spells (Free '>') (fun _ => none) raw body →
      IriText (.reference raw) ('<' :: body ++ ['>'])
  | prefixed {label name : List Char} : LabelForm label → NameForm name →
      IriText (.prefixed label name) (label ++ ':' :: name)
  | escaped {label : List Char} {pieces : List (Bool × Char)} : LabelForm label →
      (∀ piece ∈ pieces, PieceForm piece) →
      (∃ piece ∈ pieces, piece.1 = true) →
      IriText (.escaped label pieces) (label ++ ':' :: pieces.flatMap pieceText)

-- The body of a long string: at most two quotes before each other character.
inductive LongText (quote : Char) : List Char → List Char → Prop where
  | nil : LongText quote [] []
  | more {quotes value text one body : List Char} : quotes.length ≤ 2 → (∀ c ∈ quotes, c = quote) →
      value.length = 1 →
      Spells (Free quote) echar value one → LongText quote text body →
      LongText quote (quotes ++ value ++ text) (quotes ++ one ++ body)

def IsQuote (quote : Char) : Prop := quote = '"' ∨ quote = '\''

inductive StringText : List Char → List Char → Prop where
  | short {quote : Char} {value body : List Char} : IsQuote quote → Spells (Free quote) echar value body →
      StringText value (quote :: body ++ [quote])
  | long {quote : Char} {value body : List Char} : IsQuote quote → LongText quote value body →
      StringText value (quote :: quote :: quote :: body ++ [quote,quote,quote])

def SignForm (sign : List Char) : Prop := sign = [] ∨ ∃ c, sign = [c] ∧ isSign c = true

inductive LiteralText : LiteralForm → List Char → Prop where
  | plain {value text : List Char} : StringText value text → LiteralText (.string value .plain) text
  | tagged {value text gap tag : List Char} : StringText value text → Gap gap → tag ≠ [] →
      (∀ c ∈ tag, isTagChar c = true) →
      LiteralText (.string value (.tagged tag)) (text ++ (gap ++ '@' :: tag))
  | typed {value text gap inner word : List Char} {datatype : IriForm} : StringText value text →
      Gap gap → Gap inner → IriText datatype word →
      LiteralText (.string value (.typed datatype)) (text ++ (gap ++ '^' :: '^' :: (inner ++ word)))
  | number {form : NumberForm} : LiteralText (.number form) form.text
  | pointed {sign whole s digits : List Char} {mark : Char} : SignForm sign → whole ≠ [] →
      (∀ c ∈ whole, isAsciiDigit c = true) →
      mark = 'e' ∨ mark = 'E' → SignForm s → digits ≠ [] → (∀ c ∈ digits, isAsciiDigit c = true) →
      LiteralText (.pointed sign whole (mark :: s ++ digits)) (sign ++ whole ++ '.' :: (mark :: s ++ digits))
  | boolean {value : Bool} :
      LiteralText (.boolean value) (if value then ['t','r','u','e'] else ['f','a','l','s','e'])

inductive Token where
  | mark (c : Char)
  | a
  | iri (form : IriForm)
  | label (name : List Char)
  | literal (form : LiteralForm)
  | directive (word : List Char)
  | keyword (word : List Char)
  | binder (label : List Char)

inductive TokenText : Token → List Char → Prop where
  | mark {c : Char} : c ∈ ['.',';',',','[',']','(',')'] → TokenText (.mark c) [c]
  | a : TokenText .a ['a']
  | iri {form : IriForm} {text : List Char} : IriText form text → TokenText (.iri form) text
  | label {name : List Char} : name ≠ [] → (∀ c ∈ name, isPnLocalChar c = true) →
      TokenText (.label name) ('_' :: ':' :: name)
  | literal {form : LiteralForm} {text : List Char} : LiteralText form text → TokenText (.literal form) text
  | directive {word : List Char} : TokenText (.directive word) ('@' :: word)
  | keyword {word text : List Char} : text.map toAsciiLowercase = word → TokenText (.keyword word) text
  | binder {label : List Char} : LabelForm label → TokenText (.binder label) (label ++ [':'])

end Spelling

section Tokens

def prefixWord : List Char := ['p','r','e','f','i','x']
def baseWord : List Char := ['b','a','s','e']

theorem prefixWord_letters : ∀ c ∈ prefixWord, isAsciiAlphabetic c = true :=
  List.forall_iff_forall_mem.mp (by decide)

theorem baseWord_letters : ∀ c ∈ baseWord, isAsciiAlphabetic c = true :=
  List.forall_iff_forall_mem.mp (by decide)

def Verb.token : Verb → Token
  | .a => .a
  | .iri form => .iri form

def Tree.tokens : {k : Kind} → Tree k → List Token
  | _, .iri form => [.iri form]
  | _, .label name => [.label name]
  | _, .literal form => [.literal form]
  | _, .anonymous => [.mark '[',.mark ']']
  | _, .properties inner => .mark '[' :: inner.tokens ++ [.mark ']']
  | _, .empty => [.mark '(',.mark ')']
  | _, .collection inner => .mark '(' :: inner.tokens ++ [.mark ')']
  | _, .one object => object.tokens
  | _, .more object rest => object.tokens ++ .mark ',' :: rest.tokens
  | _, .entry verb objects closing => verb.token :: objects.tokens ++ List.replicate closing (.mark ';')
  | _, .entries verb objects extra rest =>
    verb.token :: objects.tokens ++ .mark ';' :: List.replicate extra (.mark ';') ++ rest.tokens
  | _, .last object => object.tokens
  | _, .item object rest => object.tokens ++ rest.tokens

def Item.tokens : Item → List Token
  | .binding .turtle label iri => [.directive prefixWord,.binder label,.iri (.reference iri),.mark '.']
  | .binding .sparql label iri => [.keyword prefixWord,.binder label,.iri (.reference iri)]
  | .base .turtle iri => [.directive baseWord,.iri (.reference iri),.mark '.']
  | .base .sparql iri => [.keyword baseWord,.iri (.reference iri)]
  | .statement subject _ entries => subject.tokens ++ entries.tokens ++ [.mark '.']
  | .bare entries => .mark '[' :: entries.tokens ++ [.mark ']',.mark '.']

def documentTokens (items : List Item) : List Token := items.flatMap Item.tokens

-- Where the parser first looks for one of the keywords `words`, it misreads a
-- prefixed name that begins with one of them and a `.`; it reads no escapes.
def IriForm.misread (words : List (List Char)) (fold : Char → Char) : IriForm → Bool
  | .reference _ => false
  | .prefixed label _ => words.any fun word => (label.take word.length).map fold = word &&
      label[word.length]? = some '.'
  | .escaped .. => true

def Verb.clear : Verb → Bool
  | .a => true
  | .iri form => !form.misread [['a']] id

def LiteralForm.clear : LiteralForm → Bool
  | .string _ (.typed datatype) => !datatype.misread [] id
  | .pointed .. => false
  | _ => true

-- No object or verb is a prefixed name that begins with `true.`, `false.` or `a.`,
-- no name has an escape, each point of a number is followed by a digit, and no
-- entry is empty but a last one.
def Tree.clear : {k : Kind} → Tree k → Bool
  | _, .iri form => !form.misread [['t','r','u','e'],['f','a','l','s','e']] id
  | _, .label _ => true
  | _, .literal form => form.clear
  | _, .anonymous => true
  | _, .properties inner => inner.clear
  | _, .empty => true
  | _, .collection inner => inner.clear
  | _, .one object => object.clear
  | _, .more object rest => object.clear && rest.clear
  | _, .entry verb objects closing => verb.clear && objects.clear && closing ≤ 1
  | _, .entries verb objects extra rest => verb.clear && objects.clear && extra = 0 && rest.clear
  | _, .last object => object.clear
  | _, .item object rest => object.clear && rest.clear

def subjectClear : Tree .object → Bool
  | .iri form => !form.misread [prefixWord,baseWord] toAsciiLowercase
  | tree => tree.clear

def Item.clear : Item → Bool
  | .binding .. => true
  | .base .. => true
  | .statement subject _ entries => subjectClear subject && entries.clear
  | .bare _ => false

def clearDocument (items : List Item) : Bool := items.all Item.clear

-- Nothing is read after a name whose prefix is not among the `labels` declared: of an escaped name,
-- not even the escape.
def IriForm.declared (labels : List String) : IriForm → Bool
  | .reference _ => true
  | .prefixed label _ => String.ofList label ∈ labels
  | .escaped label _ => String.ofList label ∈ labels

def IriForm.readable (labels : List String) (words : List (List Char)) (fold : Char → Char) : IriForm → Bool
  | .reference _ => true
  | .prefixed label name => !(IriForm.prefixed label name).misread words fold
  | .escaped label _ => !(IriForm.prefixed label []).misread words fold && String.ofList label ∉ labels

def Verb.declared (labels : List String) : Verb → Bool
  | .a => true
  | .iri form => form.declared labels

def Verb.readable (labels : List String) : Verb → Bool
  | .a => true
  | .iri form => form.readable labels [['a']] id

def LiteralForm.declared (labels : List String) : LiteralForm → Bool
  | .string _ (.typed datatype) => datatype.declared labels
  | _ => true

def LiteralForm.readable (labels : List String) : LiteralForm → Bool
  | .string _ (.typed datatype) => datatype.readable labels [] id
  | .pointed .. => false
  | _ => true

def Tree.declared (labels : List String) : {k : Kind} → Tree k → Bool
  | _, .iri form => form.declared labels
  | _, .label _ => true
  | _, .literal form => form.declared labels
  | _, .anonymous => true
  | _, .properties inner => inner.declared labels
  | _, .empty => true
  | _, .collection inner => inner.declared labels
  | _, .one object => object.declared labels
  | _, .more object rest => object.declared labels && rest.declared labels
  | _, .entry verb objects _ => verb.declared labels && objects.declared labels
  | _, .entries verb objects _ rest => verb.declared labels && objects.declared labels && rest.declared labels
  | _, .last object => object.declared labels
  | _, .item object rest => object.declared labels && rest.declared labels

def Tree.readable (labels : List String) : {k : Kind} → Tree k → Bool
  | _, .iri form => form.readable labels [['t','r','u','e'],['f','a','l','s','e']] id
  | _, .label _ => true
  | _, .literal form => form.readable labels
  | _, .anonymous => true
  | _, .properties inner => inner.readable labels
  | _, .empty => true
  | _, .collection inner => inner.readable labels
  | _, .one object => object.readable labels
  | _, .more object rest => object.readable labels && (!object.declared labels || rest.readable labels)
  | _, .entry verb objects closing =>
    verb.readable labels && (!verb.declared labels || objects.readable labels &&
      (!objects.declared labels || closing ≤ 1))
  | _, .entries verb objects extra rest => verb.readable labels &&
    (!verb.declared labels || objects.readable labels &&
    (!objects.declared labels || extra = 0 && rest.readable labels))
  | _, .last object => object.readable labels
  | _, .item object rest => object.readable labels && (!object.declared labels || rest.readable labels)

def subjectReadable (labels : List String) : Tree .object → Bool
  | .iri form => form.readable labels [prefixWord,baseWord] toAsciiLowercase
  | tree => tree.readable labels

def Item.declared (labels : List String) : Item → Bool
  | .binding .. => true
  | .base .. => true
  | .statement subject _ entries => subject.declared labels && entries.declared labels
  | .bare entries => entries.declared labels

def Item.readable (labels : List String) : Item → Bool
  | .binding .. => true
  | .base .. => true
  | .statement subject _ entries => subjectReadable labels subject &&
      (!subject.declared labels || entries.readable labels)
  | .bare entries => entries.readable labels && !entries.declared labels

def Item.labels (labels : List String) : Item → List String
  | .binding _ label _ => String.ofList label :: labels
  | _ => labels

def readableFrom (labels : List String) : List Item → Bool
  | [] => true
  | item :: items => item.readable labels && (!item.declared labels || readableFrom (item.labels labels) items)

def readableDocument (items : List Item) : Bool := readableFrom [] items

end Tokens

section Readable

variable {labels : List String} {form : IriForm}

attribute [local simp] Tree.clear Tree.readable

theorem iri_readable {words : List (List Char)} {fold : Char → Char} (clear : form.misread words fold = false) :
    form.readable labels words fold = true := by
  cases form with
  | reference raw => rfl
  | prefixed label name => simpa [IriForm.readable] using clear
  | escaped label pieces => cases clear

theorem verb_readable {verb : Verb} (clear : verb.clear = true) : verb.readable labels = true := by
  cases verb with
  | a => rfl
  | iri form => exact iri_readable (by simpa [Verb.clear] using clear)

theorem literal_readable {literal : LiteralForm} (clear : literal.clear = true) :
    literal.readable labels = true := by
  cases literal with
  | string value suffix =>
    cases suffix with
    | typed datatype => exact iri_readable (by simpa [LiteralForm.clear] using clear)
    | plain | tagged => rfl
  | pointed => cases clear
  | number | boolean => rfl

theorem tree_readable {k : Kind} {tree : Tree k} (clear : tree.clear = true) : tree.readable labels = true := by
  induction tree with
  | iri form => exact iri_readable (by simpa using clear)
  | label | anonymous | empty => rfl
  | literal form => exact literal_readable clear
  | properties inner ih | collection inner ih => exact ih clear
  | one object ih | last object ih => exact ih clear
  | more object rest ih ih_rest | item object rest ih ih_rest =>
    simp only [Tree.clear,Bool.and_eq_true] at clear
    simp [ih clear.1,ih_rest clear.2]
  | entry verb objects closing ih =>
    simp only [Tree.clear,Bool.and_eq_true,decide_eq_true_eq] at clear
    simp [verb_readable clear.1.1,ih clear.1.2,clear.2]
  | entries verb objects extra rest ih ih_rest =>
    simp only [Tree.clear,Bool.and_eq_true,decide_eq_true_eq] at clear
    obtain ⟨⟨⟨verb_clear,objects_clear⟩,none_⟩,rest_clear⟩ := clear
    simp [verb_readable verb_clear,ih objects_clear,none_,ih_rest rest_clear]

theorem subject_readable {tree : Tree .object} (clear : subjectClear tree = true) :
    subjectReadable labels tree = true := by
  cases tree with
  | iri form => exact iri_readable (by simpa [subjectClear] using clear)
  | _ => exact tree_readable clear

theorem item_readable {item : Item} (clear : item.clear = true) : item.readable labels = true := by
  cases item with
  | binding | base => rfl
  | statement subject node entries =>
    simp only [Item.clear,Bool.and_eq_true] at clear
    simp [Item.readable,subject_readable clear.1,tree_readable clear.2]
  | bare entries => cases clear

theorem clear_readableFrom {items : List Item} (clear : clearDocument items = true) :
    readableFrom labels items = true := by
  induction items generalizing labels with
  | nil => rfl
  | cons item items ih =>
    obtain ⟨first,others⟩ : item.clear = true ∧ clearDocument items = true := by
      simpa [clearDocument] using clear
    simp [readableFrom,item_readable first,ih others]

theorem clear_readable {items : List Item} (clear : clearDocument items = true) :
    readableDocument items = true := clear_readableFrom clear

end Readable

section Declared

variable {scope later : Scope} {form : IriForm} {k : Kind}

def Scope.labels (scope : Scope) : List String := scope.prefixes.map Prod.fst

theorem lookup_declared {label : List Char} {iri : String}
    (found : scope.prefixes.lookup (String.ofList label) = some iri) :
    String.ofList label ∈ scope.labels := by
  obtain ⟨front,back,shape,_⟩ := List.lookup_eq_some_iff.mp found
  rw [Scope.labels,shape]
  simp

theorem resolve_declared {iri : String} (found : scope.resolve form = some iri) :
    form.declared scope.labels = true := by
  cases form with
  | reference raw => rfl
  | prefixed label name | escaped label pieces =>
    obtain ⟨value,held,_⟩ := Option.map_eq_some_iff.mp found
    exact decide_eq_true (lookup_declared held)

theorem verb_declared {verb : Verb} {iri : String} (found : scope.verb verb = some iri) :
    verb.declared scope.labels = true := by
  cases verb with
  | a => rfl
  | iri form => exact resolve_declared found

theorem literal_declared {literal : LiteralForm} {value : Value} (found : scope.literal literal = some value) :
    literal.declared scope.labels = true := by
  cases literal with
  | string value suffix =>
    cases suffix with
    | typed datatype =>
      obtain ⟨iri,resolved,_⟩ := Option.map_eq_some_iff.mp found
      exact resolve_declared resolved
    | plain | tagged => rfl
  | number | pointed | boolean => rfl

theorem cells_labels (cell : Vertex) (values : List Value) (scope : Scope) :
    (scope.cells cell values).labels = scope.labels := by
  induction values generalizing cell scope with
  | nil => rfl
  | cons value values ih =>
    cases values with
    | nil => rfl
    | cons second values => exact ih _ _

def Declares : {k : Kind} → Tree k → Prop
  | .object,tree => ∀ scope value later, expand tree scope = some (value,later) →
    tree.declared scope.labels = true ∧ later.labels = scope.labels
  | .objects,tree => ∀ vertex predicate scope later, expand tree vertex predicate scope = some later →
    tree.declared scope.labels = true ∧ later.labels = scope.labels
  | .entries,tree => ∀ vertex scope later, expand tree vertex scope = some later →
    tree.declared scope.labels = true ∧ later.labels = scope.labels
  | .items,tree => ∀ scope values later, expand tree scope = some (values,later) →
    tree.declared scope.labels = true ∧ later.labels = scope.labels

theorem expand_declares (tree : Tree k) : Declares tree := by
  induction tree with
  | iri form =>
    intro scope value later found
    obtain ⟨iri,resolved,same⟩ := Option.map_eq_some_iff.mp found
    cases same
    exact ⟨resolve_declared resolved,rfl⟩
  | literal form =>
    intro scope value later found
    obtain ⟨content,read,same⟩ := Option.map_eq_some_iff.mp found
    cases same
    exact ⟨literal_declared read,rfl⟩
  | label | anonymous | empty =>
    intro scope value later found
    cases found
    exact ⟨rfl,rfl⟩
  | properties entries ih =>
    intro scope value later found
    obtain ⟨last,inside,same⟩ := Option.map_eq_some_iff.mp found
    cases same
    have declares := ih _ _ _ inside
    exact declares
  | collection items ih =>
    intro scope value later found
    obtain ⟨⟨values,last⟩,inside,same⟩ := Option.map_eq_some_iff.mp found
    cases same
    obtain ⟨declared,kept⟩ := ih _ _ _ inside
    exact ⟨declared,(cells_labels _ _ _).trans kept⟩
  | one object ih =>
    intro vertex predicate scope later found
    obtain ⟨⟨value,last⟩,inside,same⟩ := Option.map_eq_some_iff.mp found
    cases same
    have declares := ih _ _ _ inside
    exact declares
  | more object rest ih ih_rest =>
    intro vertex predicate scope later found
    obtain ⟨⟨value,middle⟩,inside,others⟩ := Option.bind_eq_some_iff.mp found
    obtain ⟨declared,kept⟩ := ih _ _ _ inside
    obtain ⟨declared_rest,kept_rest⟩ := ih_rest _ _ _ _ others
    have kept_rest : later.labels = middle.labels := kept_rest
    have declared_rest : rest.declared middle.labels = true := declared_rest
    rw [kept] at kept_rest declared_rest
    exact ⟨by rw [Tree.declared,declared,declared_rest]; rfl,kept_rest⟩
  | entry verb objects closing ih =>
    intro vertex scope later found
    obtain ⟨iri,resolved,inside⟩ := Option.bind_eq_some_iff.mp found
    obtain ⟨declared,kept⟩ := ih _ _ _ _ inside
    exact ⟨by rw [Tree.declared,verb_declared resolved,declared]; rfl,kept⟩
  | entries verb objects extra rest ih ih_rest =>
    intro vertex scope later found
    obtain ⟨iri,resolved,found⟩ := Option.bind_eq_some_iff.mp found
    obtain ⟨middle,inside,others⟩ := Option.bind_eq_some_iff.mp found
    obtain ⟨declared,kept⟩ := ih _ _ _ _ inside
    obtain ⟨declared_rest,kept_rest⟩ := ih_rest _ _ _ others
    rw [kept] at kept_rest declared_rest
    exact ⟨by rw [Tree.declared,verb_declared resolved,declared,declared_rest]; rfl,kept_rest⟩
  | last object ih =>
    intro scope values later found
    obtain ⟨⟨value,last⟩,inside,same⟩ := Option.map_eq_some_iff.mp found
    cases same
    exact ih _ _ _ inside
  | item object rest ih ih_rest =>
    intro scope values later found
    obtain ⟨⟨value,middle⟩,inside,others⟩ := Option.bind_eq_some_iff.mp found
    obtain ⟨⟨values',last⟩,outside,same⟩ := Option.map_eq_some_iff.mp others
    cases same
    obtain ⟨declared,kept⟩ := ih _ _ _ inside
    obtain ⟨declared_rest,kept_rest⟩ := ih_rest _ _ _ outside
    rw [kept] at kept_rest declared_rest
    exact ⟨by rw [Tree.declared,declared,declared_rest]; rfl,kept_rest⟩

theorem subject_declares {tree : Tree .object} {vertex : Vertex}
    (found : expandSubject tree scope = some (vertex,later)) :
    tree.declared scope.labels = true ∧ later.labels = scope.labels := by
  obtain ⟨⟨value,middle⟩,inside,same⟩ := Option.bind_eq_some_iff.mp found
  cases value with
  | vertex => cases same; exact expand_declares tree _ _ _ inside
  | literal => cases same

theorem item_declares {item : Item} (found : expandItem item scope = some later) :
    item.declared scope.labels = true ∧ later.labels = item.labels scope.labels := by
  cases item with
  | binding | base =>
    cases found
    exact ⟨rfl,rfl⟩
  | statement subject node entries =>
    obtain ⟨⟨vertex,middle⟩,first,second⟩ := Option.bind_eq_some_iff.mp found
    obtain ⟨declared,kept⟩ := subject_declares first
    obtain ⟨declared_entries,kept_entries⟩ := expand_declares entries _ _ _ second
    rw [kept] at kept_entries declared_entries
    exact ⟨by rw [Item.declared,declared,declared_entries]; rfl,kept_entries⟩
  | bare entries =>
    have inside : expand entries scope.allocate.1 scope.allocate.2 = some later := found
    have declares := expand_declares entries _ _ _ inside
    exact declares

end Declared

section Layout

def NameEnds (rest : List Char) : Prop := ∃ dots tail, rest = dots ++ tail ∧ (∀ c ∈ dots, c = '.') ∧
    Stops isPnLocalChar tail

def IriEnds : IriForm → List Char → Prop
  | .reference _, _ => True
  | _, rest => NameEnds rest

def NumberForm.Ends (form : NumberForm) (rest : List Char) : Prop :=
  Stops isAsciiDigit rest ∧ (form.exponent = none → rest.head? ≠ some 'e' ∧ rest.head? ≠ some 'E') ∧
  (form.exponent = none → form.fraction = [] → ∀ c tail, rest = '.' :: c :: tail → isAsciiDigit c = false)

-- Where the parser sees the end of a token spelled `word` before `rest`, a
-- literal with its suffix.
def Ends : Token → List Char → List Char → Prop
  | .mark _, _, _ => True
  | .a, _, rest => isTokenBoundary rest.head? = true
  | .iri form, _, rest => IriEnds form rest
  | .label _, _, rest => Stops isPnLocalChar rest
  | .literal (.string _ .plain), word, rest => rest.head? ≠ some '@' ∧ rest.take 2 ≠ ['^','^'] ∧
      ∀ quote, word = [quote,quote] → rest.head? ≠ some quote
  | .literal (.string value (.tagged tag)), word, rest =>
      (∃ text, StringText value text ∧ word = text ++ '@' :: tag) ∧ Stops isTagChar rest
  | .literal (.string value (.typed datatype)), word, rest =>
    (∃ text gap name, StringText value text ∧ Gap gap ∧ IriText datatype name ∧
      word = text ++ '^' :: '^' :: (gap ++ name)) ∧ IriEnds datatype rest
  | .literal (.number form), _, rest => form.Ends rest
  | .literal (.pointed ..), _, _ => True
  | .literal (.boolean _), _, rest => isTokenBoundary rest.head? = true
  | .directive _, _, rest => Stops isAsciiAlphabetic rest
  | .keyword _, _, rest => isTokenBoundary rest.head? = true
  | .binder _, _, _ => True

-- A text of the tokens, with a gap before each and at the end: `ends` holds of
-- each token, the word it is spelled as and what stands after that.
inductive Placed (ends : Token → List Char → List Char → Prop) : List Token → List Char → Prop where
  | nil {gap : List Char} : Gap gap → Placed ends [] gap
  | comment {gap body : List Char} : Gap gap → '\n' ∉ body → Placed ends [] (gap ++ '#' :: body)
  | cons {token : Token} {tokens : List Token} {gap word rest : List Char} : Gap gap →
      TokenText token word → ends token word rest →
      Placed ends tokens rest → Placed ends (token :: tokens) (gap ++ (word ++ rest))

abbrev Spread : List Token → List Char → Prop := Placed fun _ _ _ => True

-- A text in which the parser sees where each token ends.
abbrev Laid : List Token → List Char → Prop := Placed Ends

end Layout
end ArangoDataTools.Turtle
