import JavaSource.ClassName
import JavaSource.CompilationUnit
import JavaSource.Element
import JavaSource.Error
import JavaSource.Expr.Basic
import JavaSource.Expr.Build
import JavaSource.Identifier
import JavaSource.Imports
import JavaSource.Literal
import JavaSource.Name
import JavaSource.Node
import JavaSource.Page
import JavaSource.Primitive
import JavaSource.Scope
import JavaSource.Settings
import JavaSource.Settings.Fault
import JavaSource.Text.CharClass
import JavaSource.Text.Split
import JavaSource.Text.Written
import JavaSource.Token
import JavaSource.Toml.Document
import JavaSource.Toml.Float
import JavaSource.Toml.Quoted
import JavaSource.Toml.Reader
import JavaSource.Toml.Scalar
import JavaSource.Toml.Table
import JavaSource.Toml.Value
import JavaSource.TypeRef.Basic
import JavaSource.TypeRef.OfName
import JavaSource.Proofs.Text.Fields
import JavaSource.Proofs.ClassName
import JavaSource.Proofs.ClassName.Views
import JavaSource.Proofs.TypeRef.Checked
import JavaSource.Proofs.Imports
import JavaSource.Proofs.Resolution
import JavaSource.Proofs.Expr.Checked
import JavaSource.Proofs.Lexeme
import JavaSource.Proofs.Literal.Reading
import JavaSource.Proofs.Page
import JavaSource.Proofs.Rendering
import JavaSource.Proofs.Outline
import JavaSource.Proofs.Reader
import JavaSource.Proofs.Page.Composition
import JavaSource.Proofs.Literal.Form
import JavaSource.Proofs.TypeRef.OfName
import JavaSource.Proofs.Imports.Declaration
import JavaSource.Proofs.Imports.Accepted
import JavaSource.Proofs.Imports.Run
import JavaSource.Proofs.Naming
import JavaSource.Proofs.Mentions
import JavaSource.Proofs.Imports.Contents
import JavaSource.Proofs.Imports.Merge
import JavaSource.Proofs.TypeRef.Grammar
import JavaSource.Proofs.TypeRef.Display
import JavaSource.Proofs.TypeRef.Boxing
import JavaSource.Proofs.TypeRef.Invariant
import JavaSource.Proofs.Page.Layout
import JavaSource.Proofs.Toml.Keys
import JavaSource.Proofs.Settings
