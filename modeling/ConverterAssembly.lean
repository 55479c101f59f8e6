import ConverterAssembly.Ruby.Check
import ConverterAssembly.Template.Compile
import ConverterAssembly.Proofs.Converter.RoundTrip
import ConverterAssembly.Proofs.Converter.Valid
import ConverterAssembly.Proofs.Converter.Traits
import ConverterAssembly.Proofs.Converter.Values
import ConverterAssembly.Proofs.Ruby.Decoding
import ConverterAssembly.Proofs.Converter.Registrations
import ConverterAssembly.Proofs.Converter.Declarations
import ConverterAssembly.Proofs.Ruby.Cover
import ConverterAssembly.Proofs.Ruby.Reformat
import ConverterAssembly.Proofs.Ruby.Indentation
import ConverterAssembly.Proofs.Ruby.Numbering
import ConverterAssembly.Proofs.Ruby.Copies
import ConverterAssembly.Proofs.Ruby.Methods
import ConverterAssembly.Proofs.Ruby.Readable
import ConverterAssembly.Proofs.Template.Reports
import ConverterAssembly.Proofs.Template.Outcomes
import ConverterAssembly.Proofs.Converter.Spellings
import ConverterAssembly.Proofs.Template.Repeats
