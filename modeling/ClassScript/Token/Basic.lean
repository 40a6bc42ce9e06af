import ClassScript.Decimal.Basic
import ClassScript.Floating.Text

/-!
# Tokens

A source text is a sequence of literals, names, keywords and symbols. Each keyword and symbol has
one spelling; a word that is spelled like a keyword is that keyword and never a name.
-/

namespace ClassScript

inductive Keyword where
  | kwClass
  | kwLet
  | kwFunc
  | kwIf
  | kwElse
  | kwWhile
  | kwDo
  | kwFor
  | kwBreak
  | kwContinue
  | kwReturn
  | kwPublic
  | kwPrivate
  | kwNew
  | kwThis
  | kwConstructor
  | kwStatic
  | kwVirt
  | kwOvrd
  | kwInclude
  | kwUse
  | kwThrow
  | kwTry
  | kwCatch
  | kwFinally
  | kwEnum
  | kwInterface
  | kwGetter
  | kwSetter
  | kwParent
  | kwSwitch
  | kwCase
  | kwDefault
  | kwConst
  | kwIs
  deriving DecidableEq

namespace Keyword

def spelling : Keyword → String
  | .kwClass => "class"
  | .kwLet => "let"
  | .kwFunc => "func"
  | .kwIf => "if"
  | .kwElse => "else"
  | .kwWhile => "while"
  | .kwDo => "do"
  | .kwFor => "for"
  | .kwBreak => "break"
  | .kwContinue => "continue"
  | .kwReturn => "return"
  | .kwPublic => "public"
  | .kwPrivate => "private"
  | .kwNew => "new"
  | .kwThis => "this"
  | .kwConstructor => "constructor"
  | .kwStatic => "static"
  | .kwVirt => "virt"
  | .kwOvrd => "ovrd"
  | .kwInclude => "include"
  | .kwUse => "use"
  | .kwThrow => "throw"
  | .kwTry => "try"
  | .kwCatch => "catch"
  | .kwFinally => "finally"
  | .kwEnum => "enum"
  | .kwInterface => "interface"
  | .kwGetter => "getter"
  | .kwSetter => "setter"
  | .kwParent => "parent"
  | .kwSwitch => "switch"
  | .kwCase => "case"
  | .kwDefault => "default"
  | .kwConst => "const"
  | .kwIs => "is"

def all : List Keyword :=
  [.kwClass, .kwLet, .kwFunc, .kwIf, .kwElse, .kwWhile, .kwDo, .kwFor, .kwBreak, .kwContinue,
    .kwReturn, .kwPublic, .kwPrivate, .kwNew, .kwThis, .kwConstructor, .kwStatic, .kwVirt, .kwOvrd,
    .kwInclude, .kwUse, .kwThrow, .kwTry, .kwCatch, .kwFinally, .kwEnum, .kwInterface, .kwGetter,
    .kwSetter, .kwParent, .kwSwitch, .kwCase, .kwDefault, .kwConst, .kwIs]

/-- The keyword spelled `word`. -/
def ofWord? (word : String) : Option Keyword :=
  all.find? fun k => k.spelling == word

end Keyword

inductive Symbol where
  | shiftRightLogical
  | equalEqual
  | bangEqual
  | lessEqual
  | greaterEqual
  | andAnd
  | orOr
  | plusAssign
  | minusAssign
  | starAssign
  | slashAssign
  | percentAssign
  | plusPlus
  | minusMinus
  | fatArrow
  | colonColon
  | shiftLeft
  | shiftRight
  | plus
  | minus
  | star
  | slash
  | percent
  | assign
  | less
  | greater
  | bang
  | question
  | colon
  | semicolon
  | comma
  | dot
  | leftParen
  | rightParen
  | leftBrace
  | rightBrace
  | leftBracket
  | rightBracket
  deriving DecidableEq

namespace Symbol

/-- The characters of a symbol. -/
def spelling : Symbol → List Char
  | .shiftRightLogical => ['>', '>', '>']
  | .equalEqual => ['=', '=']
  | .bangEqual => ['!', '=']
  | .lessEqual => ['<', '=']
  | .greaterEqual => ['>', '=']
  | .andAnd => ['&', '&']
  | .orOr => ['|', '|']
  | .plusAssign => ['+', '=']
  | .minusAssign => ['-', '=']
  | .starAssign => ['*', '=']
  | .slashAssign => ['/', '=']
  | .percentAssign => ['%', '=']
  | .plusPlus => ['+', '+']
  | .minusMinus => ['-', '-']
  | .fatArrow => ['=', '>']
  | .colonColon => [':', ':']
  | .shiftLeft => ['<', '<']
  | .shiftRight => ['>', '>']
  | .plus => ['+']
  | .minus => ['-']
  | .star => ['*']
  | .slash => ['/']
  | .percent => ['%']
  | .assign => ['=']
  | .less => ['<']
  | .greater => ['>']
  | .bang => ['!']
  | .question => ['?']
  | .colon => [':']
  | .semicolon => [';']
  | .comma => [',']
  | .dot => ['.']
  | .leftParen => ['(']
  | .rightParen => [')']
  | .leftBrace => ['{']
  | .rightBrace => ['}']
  | .leftBracket => ['[']
  | .rightBracket => [']']

/-- All symbols, longer ones first. -/
def all : List Symbol :=
  [.shiftRightLogical, .equalEqual, .bangEqual, .lessEqual, .greaterEqual, .andAnd, .orOr,
    .plusAssign, .minusAssign, .starAssign, .slashAssign, .percentAssign, .plusPlus, .minusMinus,
    .fatArrow, .colonColon, .shiftLeft, .shiftRight, .plus, .minus, .star, .slash, .percent,
    .assign, .less, .greater, .bang, .question, .colon, .semicolon, .comma, .dot, .leftParen,
    .rightParen, .leftBrace, .rightBrace, .leftBracket, .rightBracket]

def text (s : Symbol) : String := String.ofList s.spelling

end Symbol

inductive Token where
  | int (value : Int64)
  | float (value : Float32)
  | double (value : Float)
  | decimal (value : Decimal)
  | string (value : String)
  | char (value : Char)
  | bool (value : Bool)
  | name (word : String)
  | keyword (word : Keyword)
  | symbol (mark : Symbol)

/-- Describes a token in messages and token listings. -/
def Token.describe : Token → String
  | .int value => "integer literal '" ++ toString value.toInt ++ "'"
  | .float value => "float literal '" ++ Floating.singleText value ++ "f'"
  | .double value => "double literal '" ++ Floating.doubleText value ++ "d'"
  | .decimal value => "decimal literal '" ++ value.text ++ "m'"
  | .string value => "string literal \"" ++ value ++ "\""
  | .char value => "character literal '" ++ value.toString ++ "'"
  | .bool value => if value then "'true'" else "'false'"
  | .name word => "identifier '" ++ word ++ "'"
  | .keyword word => "'" ++ word.spelling ++ "'"
  | .symbol mark => "'" ++ mark.text ++ "'"

/-- A token and the line on which it ends. -/
structure Lexeme where
  token : Token
  line : Nat

end ClassScript
