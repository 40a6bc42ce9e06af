import ClassScript.Listing.Outline
import ClassScript.Listing.Quoted
import ClassScript.Floating.Text
import ClassScript.Program.Statement

/-!
# Program listings

The outline of a program: every node with its parts by name, in the order in which they are
declared.
-/

namespace ClassScript.Listing

def text (s : String) : Outline := .atom (quotedString s)

def word (w : Int64) : Outline := .atom (toString w.toInt)

def ofLiteral : Literal → Outline
  | .int value => .tuple "Int" [word value]
  | .float value => .tuple "Float" [.atom (Floating.singleListing value)]
  | .double value => .tuple "Double" [.atom (Floating.doubleListing value)]
  | .decimal value => .tuple "Decimal" [.atom value.text]
  | .bool value => .tuple "Bool" [.bool value]
  | .string value => .tuple "String" [text value]
  | .char value => .tuple "Char" [.atom (quotedChar value)]

def ofTy : Ty → Outline
  | .int => .atom "Int"
  | .float => .atom "Float"
  | .double => .atom "Double"
  | .decimal => .atom "Decimal"
  | .bool => .atom "Bool"
  | .string => .atom "String"
  | .char => .atom "Char"
  | .void => .atom "Void"
  | .array element => .tuple "Array" [ofTy element]
  | .named className => .tuple "Class" [text className]

def ofBinaryOp : BinaryOp → Outline
  | .or => .atom "Or"
  | .and => .atom "And"
  | .equal => .atom "Equal"
  | .notEqual => .atom "NotEqual"
  | .less => .atom "Less"
  | .lessEqual => .atom "LessEqual"
  | .greater => .atom "Greater"
  | .greaterEqual => .atom "GreaterEqual"
  | .shiftLeft => .atom "ShiftLeft"
  | .shiftRight => .atom "ShiftRight"
  | .shiftRightLogical => .atom "UnsignedShiftRight"
  | .add => .atom "Add"
  | .subtract => .atom "Subtract"
  | .multiply => .atom "Multiply"
  | .divide => .atom "Divide"
  | .modulo => .atom "Modulo"

def ofUnaryOp : UnaryOp → Outline
  | .negate => .atom "Negate"
  | .not => .atom "Not"

/-! ## Expressions -/

mutual

def ofExpr : Expr → Outline
  | .literal value line => .record "Literal" [("value", ofLiteral value), ("line", .nat line)]
  | .var name line => .record "Variable" [("name", text name), ("line", .nat line)]
  | .self line => .record "This" [("line", .nat line)]
  | .unary op operand line =>
    .record "Unary" [("op", ofUnaryOp op), ("expr", ofExpr operand), ("line", .nat line)]
  | .binary left op right line =>
    .record "Binary"
      [("left", ofExpr left), ("op", ofBinaryOp op), ("right", ofExpr right), ("line", .nat line)]
  | .conditional condition onTrue onFalse line =>
    .record "Ternary"
      [("condition", ofExpr condition), ("then_expr", ofExpr onTrue),
        ("else_expr", ofExpr onFalse), ("line", .nat line)]
  | .assign target value line =>
    .record "Assign" [("target", ofTarget target), ("value", ofExpr value), ("line", .nat line)]
  | .call name arguments line =>
    .record "Call"
      [("name", text name), ("arguments", .list (ofExprs arguments)), ("line", .nat line)]
  | .methodCall object method arguments line =>
    .record "MethodCall"
      [("object", ofExpr object), ("method", text method),
        ("arguments", .list (ofExprs arguments)), ("line", .nat line)]
  | .member object name line =>
    .record "Member" [("object", ofExpr object), ("name", text name), ("line", .nat line)]
  | .index array position line =>
    .record "Index" [("array", ofExpr array), ("index", ofExpr position), ("line", .nat line)]
  | .array elements elementType line =>
    .record "ArrayLiteral"
      [("elements", .list (ofExprs elements)),
        ("element_type", .option (elementType.map ofTy)), ("line", .nat line)]
  | .new className arguments line =>
    .record "New"
      [("class", text className), ("arguments", .list (ofExprs arguments)), ("line", .nat line)]
  | .typeTest operand ty line =>
    .record "Is" [("expr", ofExpr operand), ("ty", ofTy ty), ("line", .nat line)]

def ofTarget : Target → Outline
  | .var name => .tuple "Variable" [text name]
  | .index array position =>
    .record "Index" [("array", ofExpr array), ("index", ofExpr position)]
  | .member object name => .record "Member" [("object", ofExpr object), ("name", text name)]

def ofExprs : List Expr → List Outline
  | [] => []
  | e :: rest => ofExpr e :: ofExprs rest

end

/-! ## Declarations without statements -/

def ofLength : ArrayLength → Outline
  | .explicit size => .tuple "Explicit" [ofExpr size]
  | .inferred => .atom "Inferred"

def ofVariableDecl (decl : VariableDecl) : Outline :=
  .record "VariableDecl"
    [("name", text decl.name), ("ty", ofTy decl.ty),
      ("array_length", .option (decl.length.map ofLength)),
      ("initializer", .option (decl.initializer.map ofExpr)), ("is_const", .bool decl.isConst),
      ("line", .nat decl.line)]

def ofParam (param : Param) : Outline :=
  .record "Param" [("name", text param.name), ("ty", ofTy param.ty), ("line", .nat param.line)]

def ofParams (params : List Param) : Outline := .list (params.map ofParam)

def ofAccess : Access → Outline
  | .everyone => .atom "Public"
  | .ownerOnly => .atom "Private"

def ofAccessors (accessors : Accessors) : Outline :=
  .record "Accessors" [("getter", .bool accessors.getter), ("setter", .bool accessors.setter)]

def ofModifier : MethodModifier → Outline
  | .plain => .atom "None"
  | .virtual => .atom "Virtual"
  | .override => .atom "Override"

def ofFieldDecl (field : FieldDecl) : Outline :=
  .record "FieldDecl"
    [("decl", ofVariableDecl field.decl), ("access", ofAccess field.access),
      ("is_static", .bool field.isStatic), ("accessors", ofAccessors field.accessors)]

def ofSignature (signature : MethodSignature) : Outline :=
  .record "MethodSignature"
    [("name", text signature.name), ("params", ofParams signature.params),
      ("return_type", ofTy signature.returnType), ("line", .nat signature.line)]

def ofInterfaceDecl (decl : InterfaceDecl) : Outline :=
  .record "InterfaceDecl"
    [("name", text decl.name), ("methods", .list (decl.methods.map ofSignature)),
      ("line", .nat decl.line)]

def ofEnumMember (member : String × Option Int64) : Outline :=
  .tuple "" [text member.1, .option (member.2.map word)]

def ofEnumDecl (decl : EnumDecl) : Outline :=
  .record "EnumDecl"
    [("name", text decl.name), ("members", .list (decl.members.map ofEnumMember)),
      ("line", .nat decl.line)]

/-! ## Statements -/

mutual

def ofStatement : Statement → Outline
  | .expression e line => .record "Expression" [("expr", ofExpr e), ("line", .nat line)]
  | .declare decl => .tuple "VariableDeclaration" [ofVariableDecl decl]
  | .function decl => .tuple "Function" [ofFunctionDecl decl]
  | .classType decl => .tuple "Class" [ofClassDecl decl]
  | .interface decl => .tuple "Interface" [ofInterfaceDecl decl]
  | .enumeration decl => .tuple "Enum" [ofEnumDecl decl]
  | .block statements line =>
    .record "Block" [("statements", .list (ofStatements statements)), ("line", .nat line)]
  | .branch condition onTrue onFalse line =>
    .record "If"
      [("condition", ofExpr condition), ("then_branch", ofStatement onTrue),
        ("else_branch", ofOptionalStatement onFalse), ("line", .nat line)]
  | .whileLoop condition body line =>
    .record "While"
      [("condition", ofExpr condition), ("body", ofStatement body), ("line", .nat line)]
  | .doWhile body condition line =>
    .record "DoWhile"
      [("body", ofStatement body), ("condition", ofExpr condition), ("line", .nat line)]
  | .forLoop initial condition step body line =>
    .record "For"
      [("init", ofOptionalStatement initial), ("condition", .option (condition.map ofExpr)),
        ("step", .option (step.map ofExpr)), ("body", ofStatement body), ("line", .nat line)]
  | .switch subject cases fallback line =>
    .record "Switch"
      [("discriminant", ofExpr subject), ("cases", .list (ofCases cases)),
        ("default", ofOptionalStatements fallback), ("line", .nat line)]
  | .breakLoop line => .record "Break" [("line", .nat line)]
  | .continueLoop line => .record "Continue" [("line", .nat line)]
  | .returnValue value line =>
    .record "Return" [("value", .option (value.map ofExpr)), ("line", .nat line)]
  | .throwValue value line => .record "Throw" [("value", ofExpr value), ("line", .nat line)]
  | .tryCatch body catches finalizer line =>
    .record "Try"
      [("body", .list (ofStatements body)), ("catches", .list (ofCatches catches)),
        ("finally", ofOptionalStatements finalizer), ("line", .nat line)]
  | .includeModule path line => .record "Include" [("path", text path), ("line", .nat line)]

def ofStatements : List Statement → List Outline
  | [] => []
  | statement :: rest => ofStatement statement :: ofStatements rest

def ofOptionalStatement : Option Statement → Outline
  | some statement => .option (some (ofStatement statement))
  | none => .option none

def ofOptionalStatements : Option (List Statement) → Outline
  | some statements => .option (some (.list (ofStatements statements)))
  | none => .option none

def ofCases : List SwitchCase → List Outline
  | [] => []
  | case :: rest => ofCase case :: ofCases rest

def ofCase : SwitchCase → Outline
  | ⟨value, body, line⟩ =>
    .record "SwitchCase"
      [("value", ofExpr value), ("body", .list (ofStatements body)), ("line", .nat line)]

def ofCatches : List CatchClause → List Outline
  | [] => []
  | clause :: rest => ofCatch clause :: ofCatches rest

def ofCatch : CatchClause → Outline
  | ⟨name, ty, body, line⟩ =>
    .record "CatchClause"
      [("name", text name), ("ty", .option (ty.map ofTy)), ("body", .list (ofStatements body)),
        ("line", .nat line)]

def ofFunctionDecl : FunctionDecl → Outline
  | ⟨name, params, returnType, body, line⟩ =>
    .record "FunctionDecl"
      [("name", text name), ("params", ofParams params), ("return_type", ofTy returnType),
        ("body", .list (ofStatements body)), ("line", .nat line)]

def ofMethods : List MethodDecl → List Outline
  | [] => []
  | method :: rest => ofMethod method :: ofMethods rest

def ofMethod : MethodDecl → Outline
  | ⟨function, access, isStatic, modifier⟩ =>
    .record "MethodDecl"
      [("function", ofFunctionDecl function), ("access", ofAccess access),
        ("is_static", .bool isStatic), ("modifier", ofModifier modifier)]

def ofOptionalConstructor : Option ConstructorDecl → Outline
  | some decl => .option (some (ofConstructor decl))
  | none => .option none

def ofConstructor : ConstructorDecl → Outline
  | ⟨params, parentArguments, body, access, line⟩ =>
    .record "ConstructorDecl"
      [("params", ofParams params),
        ("parent_args", .option (parentArguments.map fun args => .list (ofExprs args))),
        ("body", .list (ofStatements body)), ("access", ofAccess access), ("line", .nat line)]

def ofClassDecl : ClassDecl → Outline
  | ⟨name, isStatic, supertypes, fields, methods, constructor, line⟩ =>
    .record "ClassDecl"
      [("name", text name), ("is_static", .bool isStatic),
        ("supertypes", .list (supertypes.map text)), ("fields", .list (fields.map ofFieldDecl)),
        ("methods", .list (ofMethods methods)),
        ("constructor", ofOptionalConstructor constructor), ("line", .nat line)]

end

/-- The listing of a program. -/
def ofProgram (program : Program) : String :=
  (Outline.list (ofStatements program)).render 0

end ClassScript.Listing
