import NetProbe.Lib.Decimal

/-!
# Test Configurations

A test run is described by an XML file whose root is `test`. Each child of the
root that names one of the four kinds of tests is turned into a test by the
`config` of its kind, in document order, and the rest is skipped.

The file is edited by hand, so `config` meets any text. A field that is absent
or blank takes its default. One that is present is taken as it is, and a
number that cannot be read throws out of `config` and out of `parse`, with the
tests before it already in the list. `Readable` says which documents are free
of such fields, and `parse_isReturned_iff` that exactly those are parsed.

## Main definitions

* `Element`: What the code sees of an XML element.
* `getTextTrim`, `elementTextTrim`: Text with its white space normalised.
* `VoiceTest.config`, `WebBrowseTest.config`, `HTTPVideoTest.config`,
  `HttpDownloadTest.config`: The four kinds of tests.
* `TestConfig`, `load`, `parse`: The configuration object.
* `Numeric`: A field that is absent, blank, or a number.
* `Readable`: A document whose number fields can all be read.

## Theorems

* `getInt_ok_iff`: A number field can be read exactly if it is numeric.
* `configure_ok_iff`: A test can be configured exactly if its element is
  readable.
* `parse_document`: Parsing leaves the document alone.
* `parse_isReturned_iff`: A document is parsed exactly if it is readable.
-/

namespace NetProbe

open Decimal

/-- An XML element: its local name, the text directly inside it, and its child
    elements. -/
inductive Element where
  | mk (name : String) (text : List Char) (children : List Element)
  deriving Repr

namespace Element

/-- `getName()`. -/
def getName : Element → String
  | mk name _ _ => name

/-- `getText()`. -/
def getText : Element → List Char
  | mk _ text _ => text

/-- `elementIterator()`. -/
def elements : Element → List Element
  | mk _ _ children => children

/-- The delimiters of a `StringTokenizer`. -/
def isSpace (c : Char) : Bool :=
  c = ' ' || c = '\t' || c = '\n' || c = '\r' || c = '\x0C'

/-- `getTextTrim()`: the words of the text, one space between them. -/
def getTextTrim (e : Element) : List Char :=
  [' '].intercalate ((e.getText.splitOnP isSpace).filter (fun word => !word.isEmpty))

/-- `elementIterator(name)`. -/
def elementsNamed (e : Element) (name : String) : List Element :=
  e.elements.filter (fun child => child.getName = name)

/-- `elementTextTrim(name)`, with `none` for null: only the first child of that
    name is looked at. -/
def elementTextTrim (e : Element) (name : String) : Option (List Char) :=
  (e.elementsNamed name).head?.map getTextTrim

end Element

/-- `Test.getStringValue(value, defaultValue)`. -/
def getStringValue (value : Option (List Char)) (defaultValue : List Char) : List Char :=
  match value with
  | none => defaultValue
  | some [] => defaultValue
  | some text => text

/-- `Integer.parseInt(getStringValue(element.elementTextTrim(tag), defaultValue))`. -/
def getInt (element : Element) (tag defaultValue : String) : Except JavaException Int :=
  parseInt (getStringValue (element.elementTextTrim tag) defaultValue.toList)

structure VoiceTest where
  number : List Char
  callTime : Int
  count : Int
  interval : Int
  deriving DecidableEq, Repr

structure WebBrowseTest where
  urlList : List (List Char)
  count : Int
  interval : Int
  deriving DecidableEq, Repr

structure HTTPVideoTest where
  urlList : List (List Char)
  x : Int
  y : Int
  count : Int
  interval : Int
  deriving DecidableEq, Repr

structure HttpCfg where
  url : List Char
  threadCount : Int
  count : Int
  deriving DecidableEq, Repr

structure HttpDownloadTest where
  httpCfgList : List HttpCfg
  interval : Int
  deriving DecidableEq, Repr

def VoiceTest.config (element : Element) : Except JavaException VoiceTest := do
  let number := getStringValue (element.elementTextTrim "number") "10086".toList
  let callTime ← getInt element "call-time" "10"
  let count ← getInt element "count" "5"
  let interval ← getInt element "test-interval" "5"
  return { number, callTime, count, interval }

def WebBrowseTest.config (element : Element) : Except JavaException WebBrowseTest := do
  let urlList := (element.elementsNamed "url").map
    (fun url => getStringValue (some url.getTextTrim) "www.google.com".toList)
  let count ← getInt element "count" "5"
  let interval ← getInt element "test-interval" "5"
  return { urlList, count, interval }

def HTTPVideoTest.config (element : Element) : Except JavaException HTTPVideoTest := do
  let urlList := (element.elementsNamed "url").map
    (fun url => getStringValue (some url.getTextTrim) "www.youku.com".toList)
  let x ← getInt element "x" "0"
  let y ← getInt element "y" "0"
  let count ← getInt element "count" "5"
  let interval ← getInt element "test-interval" "5"
  return { urlList, x, y, count, interval }

/-- One row of a download test. -/
def HttpCfg.config (row : Element) : Except JavaException HttpCfg := do
  let url := getStringValue (row.elementTextTrim "url") "".toList
  let threadCount ← getInt row "thread-count" "1"
  let count ← getInt row "count" "0"
  return { url, threadCount, count }

def HttpDownloadTest.config (element : Element) : Except JavaException HttpDownloadTest := do
  let httpCfgList ← (element.elementsNamed "row").mapM HttpCfg.config
  let interval ← getInt element "test-interval" "5"
  return { httpCfgList, interval }

/-- A configured test. -/
inductive Test where
  | voice (test : VoiceTest)
  | webBrowse (test : WebBrowseTest)
  | video (test : HTTPVideoTest)
  | httpDownload (test : HttpDownloadTest)
  deriving DecidableEq, Repr

/-- What `new File(filePath)` and the XML reader make of a path. -/
inductive ConfigFile where
  | absent
  | notAFile
  | malformed
  | document (root : Element)

structure TestConfig where
  filePath : Option String
  testList : List Test
  document : Option Element

namespace TestConfig

def fresh : TestConfig := { filePath := none, testList := [], document := none }

/-- `load(filePath)`, given what is found at the path. -/
def load (c : TestConfig) (filePath : Option String) (file : ConfigFile) : Bool × TestConfig :=
  match filePath with
  | none => (false, c)
  | some path =>
      match file with
      | .absent => (false, c)
      | .notAFile => (false, c)
      | .malformed => (false, { c with filePath := some path })
      | .document root => (true, { c with filePath := some path, document := some root })

/-- The test an element of the root stands for, if its name is a kind's tag. -/
def configure (element : Element) : Except JavaException (Option Test) :=
  if element.getName = "voice" then
    (VoiceTest.config element).map (fun test => some (.voice test))
  else if element.getName = "web-browse" then
    (WebBrowseTest.config element).map (fun test => some (.webBrowse test))
  else if element.getName = "video" then
    (HTTPVideoTest.config element).map (fun test => some (.video test))
  else if element.getName = "http-download" then
    (HttpDownloadTest.config element).map (fun test => some (.httpDownload test))
  else .ok none

/-- One turn of the loop in `parse`. -/
def addTest (c : TestConfig) (element : Element) : Outcome TestConfig :=
  match configure element with
  | .ok test => .returned { c with testList := c.testList ++ test.toList }
  | .error e => .threw e c

/-- `parse()`. -/
def parse (c : TestConfig) : Outcome TestConfig :=
  let cleared := { c with testList := [] }
  match c.document with
  | none => .threw .nullPointer cleared
  | some root =>
      if root.getName = "test" then Outcome.feed addTest cleared root.elements
      else .returned cleared

end TestConfig

/-- The field is absent, blank, or a number. -/
def Numeric (element : Element) (tag : String) : Prop :=
  ∀ text, element.elementTextTrim tag = some text → text ≠ [] → IsInt text

/-- All number fields of a test's element can be read. -/
def ReadableTest (element : Element) : Prop :=
  if element.getName = "voice" then
    Numeric element "call-time" ∧ Numeric element "count" ∧ Numeric element "test-interval"
  else if element.getName = "web-browse" then
    Numeric element "count" ∧ Numeric element "test-interval"
  else if element.getName = "video" then
    Numeric element "x" ∧ Numeric element "y" ∧ Numeric element "count" ∧
      Numeric element "test-interval"
  else if element.getName = "http-download" then
    (∀ row ∈ element.elementsNamed "row", Numeric row "thread-count" ∧ Numeric row "count") ∧
      Numeric element "test-interval"
  else True

/-- All number fields of all tests of a document can be read. -/
def Readable (root : Element) : Prop :=
  root.getName = "test" → ∀ element ∈ root.elements, ReadableTest element

/-- A default that is a number stands in for an absent or blank field. -/
theorem getInt_ok_iff (element : Element) (tag defaultValue : String)
    (hdefault : IsInt defaultValue.toList) :
    (∃ n, getInt element tag defaultValue = .ok n) ↔ Numeric element tag := by
  unfold getInt Numeric
  rw [parseInt_ok_iff]
  -- Absent, blank, or a text of its own.
  rcases element.elementTextTrim tag with _ | ⟨_ | ⟨c, cs⟩⟩
  · simp [getStringValue, hdefault]
  · simp [getStringValue, hdefault]
  · simp [getStringValue]

theorem voiceTest_ok_iff (element : Element) :
    (∃ test, VoiceTest.config element = .ok test) ↔
      Numeric element "call-time" ∧ Numeric element "count" ∧ Numeric element "test-interval" := by
  unfold VoiceTest.config
  rw [← getInt_ok_iff element "call-time" "10" (by decide +kernel),
    ← getInt_ok_iff element "count" "5" (by decide +kernel),
    ← getInt_ok_iff element "test-interval" "5" (by decide +kernel)]
  refine bind_ok_iff _ _ _ (fun callTime => bind_ok_iff _ _ _ (fun count => ?_))
  rw [bind_ok_iff _ _ True (fun interval => pure_ok _), and_true]

theorem webBrowseTest_ok_iff (element : Element) :
    (∃ test, WebBrowseTest.config element = .ok test) ↔
      Numeric element "count" ∧ Numeric element "test-interval" := by
  unfold WebBrowseTest.config
  rw [← getInt_ok_iff element "count" "5" (by decide +kernel),
    ← getInt_ok_iff element "test-interval" "5" (by decide +kernel)]
  refine bind_ok_iff _ _ _ (fun count => ?_)
  rw [bind_ok_iff _ _ True (fun interval => pure_ok _), and_true]

theorem httpVideoTest_ok_iff (element : Element) :
    (∃ test, HTTPVideoTest.config element = .ok test) ↔
      Numeric element "x" ∧ Numeric element "y" ∧ Numeric element "count" ∧
        Numeric element "test-interval" := by
  unfold HTTPVideoTest.config
  rw [← getInt_ok_iff element "x" "0" (by decide +kernel),
    ← getInt_ok_iff element "y" "0" (by decide +kernel),
    ← getInt_ok_iff element "count" "5" (by decide +kernel),
    ← getInt_ok_iff element "test-interval" "5" (by decide +kernel)]
  refine bind_ok_iff _ _ _ (fun x => bind_ok_iff _ _ _ (fun y =>
    bind_ok_iff _ _ _ (fun count => ?_)))
  rw [bind_ok_iff _ _ True (fun interval => pure_ok _), and_true]

theorem httpCfg_ok_iff (row : Element) :
    (∃ cfg, HttpCfg.config row = .ok cfg) ↔
      Numeric row "thread-count" ∧ Numeric row "count" := by
  unfold HttpCfg.config
  rw [← getInt_ok_iff row "thread-count" "1" (by decide +kernel),
    ← getInt_ok_iff row "count" "0" (by decide +kernel)]
  refine bind_ok_iff _ _ _ (fun threadCount => ?_)
  rw [bind_ok_iff _ _ True (fun count => pure_ok _), and_true]

theorem httpDownloadTest_ok_iff (element : Element) :
    (∃ test, HttpDownloadTest.config element = .ok test) ↔
      (∀ row ∈ element.elementsNamed "row", Numeric row "thread-count" ∧ Numeric row "count") ∧
        Numeric element "test-interval" := by
  unfold HttpDownloadTest.config
  rw [← getInt_ok_iff element "test-interval" "5" (by decide +kernel),
    ← mapM_ok_iff HttpCfg.config _ httpCfg_ok_iff]
  refine bind_ok_iff _ _ _ (fun httpCfgList => ?_)
  rw [bind_ok_iff _ _ True (fun interval => pure_ok _), and_true]

namespace TestConfig

theorem configure_ok_iff (element : Element) :
    (∃ test, configure element = .ok test) ↔ ReadableTest element := by
  unfold configure ReadableTest
  -- One case for each tag, in the order of the source.
  split
  · rw [map_ok_iff, voiceTest_ok_iff]
  split
  · rw [map_ok_iff, webBrowseTest_ok_iff]
  split
  · rw [map_ok_iff, httpVideoTest_ok_iff]
  split
  · rw [map_ok_iff, httpDownloadTest_ok_iff]
  · simp

theorem addTest_isReturned_iff (c : TestConfig) (element : Element) :
    (addTest c element).isReturned = true ↔ ReadableTest element := by
  rw [← configure_ok_iff]
  unfold addTest
  rcases configure element with e | test
  · simp
  · simp

/-- Parsing does not touch the document, however it ends. -/
theorem parse_document (c : TestConfig) : c.parse.state.document = c.document := by
  unfold parse
  rcases c.document with _ | root
  · rfl
  simp only
  split
  -- Whether a test is added or the loop throws, the document stays.
  · refine Outcome.feed_keeps addTest (fun c' => c'.document = some root) ?_ _ _ rfl
    intro c' element hc'
    unfold addTest
    rcases configure element with e | test
    · exact hc'
    · exact hc'
  · rfl

/-- A document is parsed exactly if it is readable. -/
theorem parse_isReturned_iff (c : TestConfig) (root : Element) (h : c.document = some root) :
    c.parse.isReturned = true ↔ Readable root := by
  unfold parse Readable
  simp only [h]
  -- A root of another name is a configuration without tests.
  by_cases hroot : root.getName = "test"
  · rw [if_pos hroot, Outcome.feed_isReturned_iff addTest ReadableTest addTest_isReturned_iff]
    exact ⟨fun hall _ => hall, fun hall => hall hroot⟩
  · rw [if_neg hroot]
    exact ⟨fun _ hname => absurd hname hroot, fun _ => rfl⟩

end TestConfig

/-- Whether a document is readable is found by parsing it. -/
instance (root : Element) : Decidable (Readable root) :=
  decidable_of_iff _
    (TestConfig.parse_isReturned_iff { TestConfig.fresh with document := some root } root rfl)

end NetProbe
