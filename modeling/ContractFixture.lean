import ContractFixture.Fixture.Wire
import ContractFixture.Json.Document
import ContractFixture.Schema.Wire
import ContractFixture.Synthesis.Basic
import ContractFixture.Synthesis.Configuration
import ContractFixture.Template.Named
import ContractFixture.Proofs.Template.Places
import ContractFixture.Proofs.Fixture.Recording
import ContractFixture.Proofs.Fixture.Rules
import ContractFixture.Proofs.Fixture.Collisions
import ContractFixture.Proofs.Json.Addressed
import ContractFixture.Proofs.Path.Text
import ContractFixture.Proofs.Template.Keys
import ContractFixture.Proofs.Fixture.Addressing
import ContractFixture.Proofs.Fixture.Kept
import ContractFixture.Proofs.Template.Unshared
import ContractFixture.Proofs.Fixture.OneRule
import ContractFixture.Proofs.Hint.Sample
import ContractFixture.Proofs.Schema.Positions
import ContractFixture.Proofs.Synthesis.Faults
import ContractFixture.Proofs.Synthesis.Conforms
import ContractFixture.Proofs.Synthesis.Rules
import ContractFixture.Proofs.Hint.Pairs
import ContractFixture.Proofs.Hint.StringField
import ContractFixture.Proofs.Json.Numerals
import ContractFixture.Proofs.Json.Strings
import ContractFixture.Proofs.Json.Documents
import ContractFixture.Proofs.Json.Content
import ContractFixture.Proofs.Json.Written
import ContractFixture.Proofs.Json.Decode
import ContractFixture.Proofs.Rule.Wire
import ContractFixture.Proofs.Fixture.Wire
import ContractFixture.Proofs.Schema.Wire
import ContractFixture.Proofs.Synthesis.Pointers
import ContractFixture.Proofs.Synthesis.Annotated
import ContractFixture.Proofs.Synthesis.Widths
import ContractFixture.Proofs.Decimal.Literal
import ContractFixture.Proofs.Hint.Literals
import ContractFixture.Proofs.Synthesis.Confined
import ContractFixture.Proofs.Fixture.Contents
import ContractFixture.Proofs.Json.Canonical
import ContractFixture.Proofs.Json.Located
import ContractFixture.Proofs.Path.Prefix
import ContractFixture.Proofs.Hint.Spelling
import ContractFixture.Proofs.Rule.History
import ContractFixture.Proofs.Fixture.RuleTexts
import ContractFixture.Proofs.Synthesis.Clashes
import ContractFixture.Proofs.Synthesis.Warnings
